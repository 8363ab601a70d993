/-
Agenthicc.Tools.PatchFile — `patch_file`: an exact text replaced in a file.

The file is decoded, the old text is searched in the spelling it was given in
and, failing that, with CRLF line endings, and the patched text is encoded and
written by a rename. The version and the diff in the result, the offset of an
undecodable byte and the texts of errors are left out.
-/
import Agenthicc.Library.Occurrences
import Agenthicc.Python.Codecs

namespace Agenthicc.Tools

open Python

/-! ## 1. Decoding -/

def LF : List Char := ['\n']

def CRLF : List Char := ['\r', '\n']

/-- `text.replace("\r\n", "\n")`. -/
def toLf (text : List Char) : List Char := Occurrences.replace CRLF LF text

/-- `text.replace("\r\n", "\n").replace("\n", "\r\n")`. -/
def toCrlf (text : List Char) : List Char := Occurrences.replace LF CRLF (toLf text)

inductive Newline where
  | lf
  | crlf
  | mixed
  | none
  deriving DecidableEq

/-- `newline` of a text. -/
def newlineOf (text : List Char) : Newline :=
  let crlf := Occurrences.count CRLF text
  let lf := text.count '\n' - crlf
  if crlf = 0 ∧ lf = 0 then .none
  else if lf = 0 then .crlf
  else if crlf = 0 then .lf
  else .mixed

structure DecodedFile where
  text : List Char
  encoding : Encoding
  bom : Bytes
  newline : Newline

def DecodedFile.encode (decoded : DecodedFile) (text : List Char) : Option Bytes :=
  (decoded.encoding.encode text).map (decoded.bom ++ ·)

/-- What `atomic_write` does, in order. -/
inductive WriteStage where
  | parents
  | mode
  | temporary
  | contents
  | chmod
  | rename
  /-- The `stat` behind the rename. -/
  | version
  deriving DecidableEq

inductive PatchError where
  | emptyOld
  | expectedBelowOne
  | permissionDenied
  | notFound
  | staleFile
  | unknownEncoding
  | undecodable
  | noMatch
  | ambiguousMatch (occurrences : Nat) (lines : List Nat)
  /-- `UnicodeEncodeError`, which the tool lets through. -/
  | unencodable
  | osError (stage : WriteStage)
  deriving DecidableEq

/-- The UTF-8 mark of a file that is read as UTF-8. -/
def bomOf : Encoding → Bytes → Bytes
  | .utf_8, data => if BOM_UTF8 <+: data then BOM_UTF8 else []
  | .utf_8_sig, _ | .utf_16 _, _ | .utf_16_le, _ | .utf_16_be, _ | .charmap _, _ => []

/-- `decode_for_edit`; `encoding` is what `codecs.lookup` finds. -/
def decodeForEdit (data : Bytes) (encoding : Option Encoding) : Except PatchError DecodedFile :=
  match encoding with
  | none => .error .unknownEncoding
  | some encoding =>
      let bom := bomOf encoding data
      match encoding.decode (data.drop bom.length) with
      | none => .error .undecodable
      | some text => .ok { text, encoding, bom, newline := newlineOf text }

/-! ## 2. Writing -/

/-- The file, and the temporary one beside it. -/
structure Directory where
  target : Option Bytes
  temporary : Option Bytes := none
  deriving DecidableEq

def WriteStage.run (data : Bytes) : WriteStage → Directory → Directory
  | parents, dir | mode, dir | chmod, dir | version, dir => dir
  | temporary, dir => { dir with temporary := some [] }
  | contents, dir => { dir with temporary := some data }
  | rename, dir => { target := dir.temporary, temporary := none }

/-- The stages in a row. The one that fails ends them, and the temporary file
is removed. -/
def runStages (fails : Option WriteStage) (data : Bytes) :
    List WriteStage → Directory → Directory × Except WriteStage Unit
  | [], dir => (dir, .ok ())
  | stage :: rest, dir =>
      if fails = some stage then ({ dir with temporary := none }, .error stage)
      else runStages fails data rest (stage.run data dir)

/-- `atomic_write`. -/
def atomicWrite (fails : Option WriteStage) (data : Bytes) (dir : Directory) :
    Directory × Except WriteStage Unit :=
  runStages fails data [.parents, .mode, .temporary, .contents, .chmod, .rename, .version] dir

/-! ## 3. The tool -/

/-- The arguments of `patch_file`. -/
structure PatchArgs where
  old_content : List Char
  new_content : List Char
  expected_replacements : Int := 1
  replace_all : Bool := false
  encoding : Option Encoding := some .utf_8

/-- What the tool meets. -/
structure PatchWorld where
  /-- The path may be written. -/
  permitted : Bool := true
  /-- `FILE_VERSIONS.check` refuses. -/
  stale : Bool := false
  fails : Option WriteStage := none

namespace PatchArgs

/-- The second spelling is searched, and found. -/
def usesCrlf (args : PatchArgs) (text : List Char) : Bool :=
  Occurrences.count args.old_content text = 0 && args.old_content.contains '\n'
    && Occurrences.count (toCrlf args.old_content) text ≠ 0

/-- `target`. -/
def target (args : PatchArgs) (text : List Char) : List Char :=
  if args.usesCrlf text then toCrlf args.old_content else args.old_content

/-- `replacement`. -/
def replacement (args : PatchArgs) (text : List Char) : List Char :=
  if args.usesCrlf text then toCrlf args.new_content else args.new_content

/-- `count`. -/
def occurrences (args : PatchArgs) (text : List Char) : Nat := Occurrences.count (args.target text) text

end PatchArgs

/-- The lines of the first three places where `target` stands; they may
overlap. -/
def firstLines (target text : List Char) : List Nat :=
  (((List.range (text.length + 1)).filter fun position => target <+: text.drop position).take 3).map
    fun position => (text.take position).count '\n' + 1

/-- The patched text, and how many replacements it has. -/
def patchedText (args : PatchArgs) (text : List Char) : Except PatchError (List Char × Nat) :=
  if args.occurrences text = 0 then .error .noMatch
  else if !args.replace_all ∧ (args.occurrences text : Int) ≠ args.expected_replacements then
    .error (.ambiguousMatch (args.occurrences text) (firstLines (args.target text) text))
  else
    .ok (Occurrences.replace (args.target text) (args.replacement text) text, args.occurrences text)

/-- `_patch` on a file that was decoded. -/
def writePatched (args : PatchArgs) (world : PatchWorld) (dir : Directory) (decoded : DecodedFile) :
    Directory × Except PatchError Nat :=
  match patchedText args decoded.text with
  | .error exc => (dir, .error exc)
  | .ok (patched, count) =>
      match decoded.encode patched with
      | none => (dir, .error .unencodable)
      | some data =>
          match atomicWrite world.fails data dir with
          | (dir, .ok ()) => (dir, .ok count)
          | (dir, .error stage) => (dir, .error (.osError stage))

/-- `PatchFileTool.execute`: the directory afterwards, and the number of
replacements. -/
def patchFile (args : PatchArgs) (world : PatchWorld) (file : Option Bytes) :
    Directory × Except PatchError Nat :=
  if args.old_content = [] then (⟨file, none⟩, .error .emptyOld)
  else if args.expected_replacements < 1 ∧ !args.replace_all then
    (⟨file, none⟩, .error .expectedBelowOne)
  else if !world.permitted then (⟨file, none⟩, .error .permissionDenied)
  else
    match file with
    | none => (⟨file, none⟩, .error .notFound)
    | some data =>
        if world.stale then (⟨file, none⟩, .error .staleFile)
        else
          match decodeForEdit data args.encoding with
          | .error exc => (⟨file, none⟩, .error exc)
          | .ok decoded => writePatched args world ⟨file, none⟩ decoded

end Agenthicc.Tools
