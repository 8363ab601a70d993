/-
Agenthicc.Runners.SessionLeaseTheorems — one live owner of a session, over all
runs.

Records change under the owner lock only, and a record is removed by the
process that wrote it or when that process is gone. So the handles of a live
process are those of the record on disk. `session_owners` collects what holds
of every run.
-/
import Agenthicc.Runners.SessionLease
import Agenthicc.Python.JsonTheorems

namespace Agenthicc.Runners

open Python Tasks

variable {plat : SessionPlatform} {py : Interp} {session_id : String} {s t u : SessionStore}
  {p q : Nat}

/-! ## 1. The memory of a process -/

/-- The handles that were not released are those of the lease, and the lease
counts them. -/
def Memory.Balanced (m : Memory) : Prop :=
  match m.lease with
  | none => m.handles = []
  | some lease => 0 < lease.references ∧ m.handles.length = lease.references
      ∧ ∀ h ∈ m.handles, h.serial = lease.serial ∧ h.owner_id = lease.owner_id

section Memory

variable {m : Memory} {id : Nat} {owner_id : String}

theorem Memory.Balanced.of_none (h : m.Balanced) (hlease : m.lease = none) : m.handles = [] := by
  simpa [Balanced, hlease] using h

theorem Memory.Balanced.of_lease {lease : LocalLease} (h : m.Balanced) (hlease : m.lease = some lease) :
    0 < lease.references ∧ m.handles.length = lease.references
      ∧ ∀ h ∈ m.handles, h.serial = lease.serial ∧ h.owner_id = lease.owner_id := by
  simpa [Balanced, hlease] using h

theorem Memory.Balanced.attach (h : m.Balanced) : (m.attach id).Balanced := by
  cases hlease : m.lease with
  | none => simpa [Memory.attach, hlease] using h
  | some lease =>
      obtain ⟨hpos, hlength, hhandles⟩ := h.of_lease hlease
      simp only [Memory.attach, hlease, Balanced, List.length_cons, List.mem_cons]
      refine ⟨by omega, by omega, fun handle hhandle => ?_⟩
      rcases hhandle with rfl | hold
      · exact ⟨rfl, rfl⟩
      · exact hhandles handle hold

theorem Memory.Balanced.install (h : m.Balanced) (hlease : m.lease = none) :
    (m.install id owner_id).Balanced := by
  simp [Memory.install, Balanced, h.of_none hlease]

theorem Memory.Balanced.release (h : m.Balanced) (id : Nat) : (m.release id).1.Balanced
    ∧ ((m.release id).1.lease.map (·.owner_id) = m.lease.map (·.owner_id)
        ∧ (m.release id).2 = none
      ∨ (m.release id).1.lease = none
        ∧ ∃ lease, m.lease = some lease ∧ (m.release id).2 = some lease.owner_id) := by
  cases hfind : m.handles.find? (·.id = id) with
  | none => simpa [Memory.release, hfind] using h
  | some handle =>
      have hmem : handle ∈ m.handles := List.mem_of_find?_eq_some hfind
      have herase : (m.handles.eraseP (·.id = id)).length = m.handles.length - 1 :=
        List.length_eraseP_of_mem hmem (by simpa using List.find?_some hfind)
      cases hlease : m.lease with
      | none =>
          have hnil := h.of_none hlease
          simp [hnil] at hmem
      | some lease =>
          obtain ⟨hpos, hlength, hhandles⟩ := h.of_lease hlease
          have hserial : lease.serial = handle.serial := (hhandles handle hmem).1.symm
          have hkeep : ∀ h ∈ m.handles.eraseP (·.id = id),
              h.serial = lease.serial ∧ h.owner_id = lease.owner_id := fun h hh =>
            hhandles h (List.mem_of_mem_eraseP hh)
          by_cases hlast : 0 < lease.references - 1
          · have heq : m.release id
                = ({ lease := some { lease with references := lease.references - 1 }
                     handles := m.handles.eraseP (·.id = id) }, none) := by
              simp only [Memory.release, hfind, hlease, hserial, hlast, ne_eq, not_true_eq_false,
                if_true, if_false]
            rw [heq]
            refine ⟨⟨hlast, ?_, hkeep⟩, .inl ⟨rfl, rfl⟩⟩
            dsimp only
            omega
          · have heq : m.release id
                = ({ lease := none, handles := m.handles.eraseP (·.id = id) },
                  some lease.owner_id) := by
              simp only [Memory.release, hfind, hlease, hserial, hlast, ne_eq, not_true_eq_false,
                if_false]
            rw [heq]
            refine ⟨List.eq_nil_of_length_eq_zero (?_ : (m.handles.eraseP _).length = 0),
              .inr ⟨rfl, lease, rfl, rfl⟩⟩
            omega

end Memory

/-! ## 2. Records -/

theorem lookup_toMapping (info : SessionOwnerInfo) :
    Json.lookup "schema_version" info.toMapping = some (.int 1)
      ∧ Json.lookup "session_id" info.toMapping = some (.str info.session_id)
      ∧ Json.lookup "owner_id" info.toMapping = some (.str info.owner_id)
      ∧ Json.lookup "pid" info.toMapping = some (.int info.pid)
      ∧ Json.lookup "host" info.toMapping = some (.str info.host)
      ∧ Json.lookup "acquired_at" info.toMapping = some (.float info.acquired_at)
      ∧ Json.lookup "entrypoint" info.toMapping = some (.str info.entrypoint)
      ∧ Json.lookup "process_start_token" info.toMapping
        = (info.process_start_token.filter (· ≠ "")).map .str := by
  cases htoken : info.process_start_token with
  | none => simp [SessionOwnerInfo.toMapping, htoken, Json.lookup, SESSION_OWNER_SCHEMA_VERSION]
  | some token =>
      by_cases hempty : token = "" <;>
        simp [SessionOwnerInfo.toMapping, htoken, hempty, Json.lookup,
          SESSION_OWNER_SCHEMA_VERSION]

theorem boundedText_of {limit : Nat} {text : String} (hne : text ≠ "")
    (hlength : text.length ≤ limit) (hprintable : ∀ c ∈ text.toList, plat.isprintable c) :
    boundedText plat limit (some (.str text)) = some text := by
  simp only [boundedText, hne, hlength, ne_eq, not_false_eq_true, true_and]
  exact if_pos (List.all_eq_true.mpr hprintable)

/-- The record is one that `from_mapping` reads. -/
def Readable (py : Interp) (plat : SessionPlatform) (session_id : String) (payload : Payload) :
    Prop := ∃ info, fromMapping py plat session_id payload = .ok (some info)

theorem boundedText_eq {limit : Nat} {value : Option Json} {text : String}
    (h : boundedText plat limit value = some text) : value = some (.str text) := by
  unfold boundedText at h
  split at h
  · split at h
    · cases h
      rfl
    · cases h
  · cases h

theorem fromMapping_owner_id {payload : Payload} {info : SessionOwnerInfo}
    (h : fromMapping py plat session_id payload = .ok (some info)) :
    Json.lookup "owner_id" payload = some (.str info.owner_id) := by
  unfold fromMapping at h
  split at h
  · cases h
  · split at h
    · rename_i owner_id pid host howner hpid hhost
      obtain ⟨acquired_at?, -, h⟩ := bind_ok h
      cases acquired_at? with
      | none => cases h
      | some acquired_at =>
          dsimp only at h
          split at h
          · cases h
          · split at h
            · cases h
              exact boundedText_eq howner
            · cases h
    · cases h

theorem printable_digit (plat : SessionPlatform) {c : Char} (h : c.isDigit = true) :
    plat.isprintable c := by
  simp only [Char.isDigit, Bool.and_eq_true, decide_eq_true_eq] at h
  obtain ⟨hlow, hhigh⟩ := h
  have hlow' : 48 ≤ c.toNat := hlow
  have hhigh' : c.toNat ≤ 57 := hhigh
  exact plat.printable_ascii c (by omega) (by omega)

theorem printable_intText (plat : SessionPlatform) {n : Int} (hpos : 0 < n) :
    ∀ c ∈ intText n, plat.isprintable c := by
  intro c hc
  cases n with
  | ofNat n =>
      have hdigits := toDigits_isDigit n
      exact printable_digit plat (List.all_eq_true.mp hdigits c hc)
  | negSucc n => omega

theorem printable_entrypoint (plat : SessionPlatform) :
    ∀ c ∈ entrypointChars, plat.isprintable c := by
  have h : (entrypointChars.all fun c => 32 ≤ c.toNat ∧ c.toNat ≤ 126) = true := by decide
  intro c hc
  have hrange := of_decide_eq_true (List.all_eq_true.mp h c hc)
  exact plat.printable_ascii c hrange.1 hrange.2

theorem printable_hex (plat : SessionPlatform) (n : Nat) :
    ∀ c ∈ (plat.uuid4_hex n).toList, plat.isprintable c := by
  have h : ("abcdef".toList.all fun c => 32 ≤ c.toNat ∧ c.toNat ≤ 126) = true := by decide
  intro c hc
  rcases plat.hex_chars n c hc with hdigit | hletter
  · exact printable_digit plat hdigit
  · have hrange := of_decide_eq_true (List.all_eq_true.mp h c hletter)
    exact plat.printable_ascii c hrange.1 hrange.2

theorem validateEntrypoint_ok {entrypoint : String} (h : validateEntrypoint entrypoint = .ok ()) :
    entrypoint ≠ "" ∧ entrypoint.length ≤ 32 ∧ ∀ c ∈ entrypoint.toList, c ∈ entrypointChars := by
  unfold validateEntrypoint at h
  split at h
  · cases h
  · rename_i hvalid
    simp only [not_or, Bool.not_eq_true, List.any_eq_false, Bool.not_eq_false',
      List.contains_iff_mem] at hvalid
    exact ⟨hvalid.1, not_lt.mp hvalid.2.1, hvalid.2.2⟩

theorem recordedToken_written {token : Option String} (h : ∀ t, token = some t → t.length ≤ 512) :
    ∃ t, recordedToken ((token.filter (· ≠ "")).map .str) = some t := by
  cases token with
  | none => exact ⟨none, rfl⟩
  | some token =>
      by_cases hempty : token = ""
      · have hnone : (some token).filter (· ≠ "") = none := by simp [Option.filter, hempty]
        exact ⟨none, by rw [hnone]; rfl⟩
      · have hsome : (some token).filter (· ≠ "") = some token := by simp [Option.filter, hempty]
        refine ⟨some token, ?_⟩
        rw [hsome]
        exact if_pos (h token rfl)

/-- A process writes records that `from_mapping` reads. -/
theorem readable_newOwner {entrypoint : String} (m : Machine) (p n : Nat)
    (h : validateEntrypoint entrypoint = .ok ()) :
    Readable py plat session_id
      (newOwner session_id entrypoint (plat.self m p) (plat.uuid4_hex n, plat.time n)).toMapping := by
  obtain ⟨hne, hlength, hchars⟩ := validateEntrypoint_ok h
  have hprintable : ∀ c ∈ entrypoint.toList, plat.isprintable c := fun c hc =>
    printable_entrypoint plat c (hchars c hc)
  let info := newOwner session_id entrypoint (plat.self m p) (plat.uuid4_hex n, plat.time n)
  obtain ⟨hschema, hsession, howner, hpid, hhost, hat, hentry, htoken⟩ := lookup_toMapping info
  have hcolon : plat.isprintable ':' := plat.printable_ascii ':' (by decide) (by decide)
  have howner_id : info.owner_id.toList
      = entrypoint.toList ++ [':'] ++ intText (plat.pid p) ++ [':']
        ++ (plat.uuid4_hex n).toList := by
    simp [info, newOwner, Platform.self]
  have hid : boundedText plat 256 (some (.str info.owner_id)) = some info.owner_id := by
    refine boundedText_of (fun hempty => ?_) ?_ fun c hc => ?_
    · simp [hempty] at howner_id
    · have hpidlength := plat.pid_length p
      have hhex := plat.hex_length n
      rw [← String.length_toList, howner_id]
      simp only [List.length_append, List.length_cons, List.length_nil, String.length_toList]
      omega
    · rw [howner_id] at hc
      simp only [List.mem_append, List.mem_singleton] at hc
      rcases hc with (((hc | rfl) | hc) | rfl) | hc
      · exact hprintable c hc
      · exact hcolon
      · exact printable_intText plat (plat.pid_pos p) c hc
      · exact hcolon
      · exact printable_hex plat n c hc
  have hpid' : positiveInt (some (.int info.pid)) = some info.pid := if_pos (plat.pid_pos p)
  have hhost' : boundedText plat 255 (some (.str info.host)) = some info.host :=
    boundedText_of (plat.hostname_nonempty p) (plat.hostname_length p) (plat.hostname_printable p)
  have hentry' : boundedText plat 32 (some (.str info.entrypoint)) = some info.entrypoint :=
    boundedText_of hne hlength hprintable
  have hwritten : ∀ t, info.process_start_token = some t → t.length ≤ 512 := by
    intro token htoken
    obtain ⟨identity, hidentity, rfl⟩ := Option.map_eq_some_iff.mp htoken
    exact plat.token_length m p p identity.1 identity.2 hidentity
  obtain ⟨token, htoken'⟩ := recordedToken_written hwritten
  have hfinite : info.acquired_at.text ∉ specialFloats := plat.time_finite n
  change Readable py plat session_id info.toMapping
  refine ⟨{ info with process_start_token := token }, ?_⟩
  unfold fromMapping
  rw [hschema, hsession, howner, hpid, hhost, hat, hentry, htoken, hid, hpid', hhost']
  have hsession_id : info.session_id = session_id := rfl
  have hversion : pyEq py (.int 1) (.int 1) = true := by simp [pyEq, scalarEq, Json.intValue?]
  simp only [Option.getD_some, SESSION_OWNER_SCHEMA_VERSION, hversion, hsession_id, ne_eq,
    not_true_eq_false, or_self, if_false, Bool.true_eq_false, numberAsFloat, htoken', hentry']
  change (if info.acquired_at.text ∈ specialFloats then _ else _) = _
  rw [if_neg hfinite]
  rfl

theorem wrote_newOwner {entrypoint : String} {draw : String × PyFloat} {m : Machine}
    (hrun : m.Running p) :
    plat.Wrote p (newOwner session_id entrypoint (plat.self m p) draw).toMapping := by
  obtain ⟨-, -, -, hpid, hhost, -, -, htoken⟩ :=
    lookup_toMapping (newOwner session_id entrypoint (plat.self m p) draw)
  refine ⟨hhost, hpid, fun recorded hrecorded => .inr ?_⟩
  rw [htoken, Option.map_eq_some_iff] at hrecorded
  obtain ⟨token, hfilter, hrecorded⟩ := hrecorded
  cases hrecorded
  obtain ⟨⟨state, token⟩, hidentity, rfl⟩ :=
    Option.map_eq_some_iff.mp (Option.eq_some_of_filter_eq_some hfilter)
  exact Platform.self_token hrun hidentity

/-! ## 3. The argument -/

/-- `p` wrote the record on disk, under `owner_id`. -/
def Owns (s : SessionStore) (p : Nat) (owner_id : String) : Prop :=
  ∃ file, s.owner = some file ∧ file.writer = some p ∧ file.owner_id = some (.str owner_id)

/-- The record is one of the process that wrote it, and can be read. -/
def Recorded (py : Interp) (plat : SessionPlatform) (session_id : String) (m : Machine)
    (file : OwnedFile) : Prop :=
  plat.Genuine m file ∧ (file.writer ≠ none →
    ∃ payload, file.content = .record payload ∧ Readable py plat session_id payload)

structure SessionsSound (py : Interp) (plat : SessionPlatform) (session_id : String)
    (s : SessionStore) : Prop where
  recorded : ∀ file ∈ s.owner, Recorded py plat session_id s.machine file
  balanced : ∀ p, p ∉ s.machine.dead → (s.memory p).Balanced
  owned : ∀ p, p ∉ s.machine.dead → ∀ lease, (s.memory p).lease = some lease →
    Owns s p lease.owner_id

/-- What a process promises of its operations. It pops no lease: its own
record is always there. -/
def Owning (py : Interp) (plat : SessionPlatform) (session_id : String) (p : Nat)
    (s : SessionStore) : SessionOp → Prop
  | .publish payload => s.guard = some p ∧ plat.Wrote p payload
      ∧ Readable py plat session_id payload
  | .unlink owner_id true => s.guard = some p ∧ (s.memory p).lease = none ∧ Owns s p owner_id
  | .unlink _ false => s.guard = some p ∧ ∃ file payload, s.owner = some file
      ∧ file.content = .record payload ∧ Readable py plat session_id payload
      ∧ ∀ w ∈ file.writer, w ∈ s.machine.dead
  | .install owner_id => (s.memory p).lease = none ∧ Owns s p owner_id
  | .pop => False
  | _ => True

/-- What the others leave of what `p` knows. -/
structure Untouched (p : Nat) (s t : SessionStore) : Prop where
  born : ∀ w, w ∈ s.machine.born → w ∈ t.machine.born
  dead : ∀ w, w ∈ s.machine.dead → w ∈ t.machine.dead
  alive : p ∉ s.machine.dead → p ∉ t.machine.dead
  memory : t.memory p = s.memory p
  mine : p ∉ s.machine.dead → ∀ file, s.owner = some file → file.writer = some p →
    t.owner = some file
  guarded : s.guard = some p → t.guard = some p ∧ t.owner = s.owner

theorem Untouched.refl (p : Nat) (s : SessionStore) : Untouched p s s :=
  ⟨fun _ h => h, fun _ h => h, fun h => h, rfl, fun _ _ h _ => h, fun h => ⟨h, rfl⟩⟩

theorem Untouched.trans (h : Untouched p s t) (h' : Untouched p t u) : Untouched p s u where
  born w hw := h'.born w (h.born w hw)
  dead w hw := h'.dead w (h.dead w hw)
  alive hp := h'.alive (h.alive hp)
  memory := h'.memory.trans h.memory
  mine hp file hfile hwriter := h'.mine (h.alive hp) file (h.mine hp file hfile hwriter) hwriter
  guarded hguard :=
    have hnext := h'.guarded (h.guarded hguard).1
    ⟨hnext.1, hnext.2.trans (h.guarded hguard).2⟩

theorem Untouched.owns {owner_id : String} (h : Untouched p s t) (hp : p ∉ s.machine.dead)
    (howns : Owns s p owner_id) : Owns t p owner_id := by
  obtain ⟨file, hfile, hwriter, hid⟩ := howns
  exact ⟨file, h.mine hp file hfile hwriter, hwriter, hid⟩

/-! ### One operation -/

/-- What an operation does to the record, to the lock and to the memory of the
process that calls it. -/
inductive SessionEffect (p : Nat) (s : SessionStore) : SessionOp → SessionStore → Prop where
  | quiet {o : SessionOp} (d : Bool) :
      SessionEffect p s o { s with machine := s.machine.acts p, directory := d }
  | locked (hfree : s.guard = none) :
      SessionEffect p s .lock { s with machine := s.machine.acts p, guard := some p }
  | unlocked (hguard : s.guard = some p) :
      SessionEffect p s .unlock { s with machine := s.machine.acts p, guard := none }
  | published {payload : Payload} (hfree : s.owner = none) :
      SessionEffect p s (.publish payload)
        { s with
          machine := s.machine.acts p
          owner := some { content := .record payload, writer := some p } }
  | unlinked {owner_id : String} {release : Bool} :
      SessionEffect p s (.unlink owner_id release)
        { s with machine := s.machine.acts p, owner := none }
  | remembered {o : SessionOp} (m : Memory)
      (hm : o = .pop ∨ (∃ id, o = .attach ∧ m = (s.memory p).attach id)
        ∨ (∃ id owner_id, o = .install owner_id ∧ m = (s.memory p).install id owner_id)
        ∨ ∃ id, o = .release id ∧ m = ((s.memory p).release id).1) :
      SessionEffect p s o
        { s with machine := s.machine.acts p, memory := Function.update s.memory p m }

theorem performSession_effect (plat : SessionPlatform) (p : Nat) (s : SessionStore)
    (o : SessionOp) : SessionEffect p s o (performSession plat p s o).1 := by
  cases o with
  | mkdir => exact .quiet true
  | pop => exact .remembered _ (.inl rfl)
  | attach => exact .remembered _ (.inr (.inl ⟨_, rfl, rfl⟩))
  | install owner_id => exact .remembered _ (.inr (.inr (.inl ⟨_, _, rfl, rfl⟩)))
  | release id => exact .remembered _ (.inr (.inr (.inr ⟨_, rfl, rfl⟩)))
  | unlink owner_id release => exact .unlinked
  | lock =>
      by_cases hfree : s.guard = none
      · have heq : (performSession plat p s .lock).1
            = { s with machine := s.machine.acts p, guard := some p } := by
          simp only [performSession, SessionStore.apply, hfree, if_true]
        exact heq ▸ .locked hfree
      · have heq : (performSession plat p s .lock).1
            = { s with machine := s.machine.acts p, directory := s.directory } := by
          simp only [performSession, SessionStore.apply, hfree, if_false]
        exact heq ▸ .quiet s.directory
  | unlock =>
      by_cases hguard : s.guard = some p
      · have heq : (performSession plat p s .unlock).1
            = { s with machine := s.machine.acts p, guard := none } := by
          simp only [performSession, SessionStore.apply, hguard, if_true]
        exact heq ▸ .unlocked hguard
      · have heq : (performSession plat p s .unlock).1
            = { s with machine := s.machine.acts p, directory := s.directory } := by
          simp only [performSession, SessionStore.apply, hguard, if_false]
        exact heq ▸ .quiet s.directory
  | publish payload =>
      cases hfree : s.owner with
      | none =>
          have heq : (performSession plat p s (.publish payload)).1
              = { s with
                  machine := s.machine.acts p
                  owner := some { content := .record payload, writer := some p } } := by
            simp only [performSession, SessionStore.apply, hfree]
          exact heq ▸ .published hfree
      | some file =>
          have heq : (performSession plat p s (.publish payload)).1
              = { s with machine := s.machine.acts p, directory := s.directory } := by
            simp only [performSession, SessionStore.apply, hfree]
          exact heq ▸ .quiet s.directory
  | _ => exact .quiet s.directory

theorem sessions_effect {o : SessionOp} (h : SessionsSound py plat session_id s)
    (heffect : SessionEffect p s o t) (howning : Owning py plat session_id p s o) :
    SessionsSound py plat session_id t := by
  have hborn : ∀ w, w ∈ s.machine.born → w ∈ (s.machine.acts p).born := fun w hw =>
    Machine.mem_born_acts.mpr (.inr hw)
  have hrecorded : ∀ file ∈ s.owner, Recorded py plat session_id (s.machine.acts p) file :=
    fun file hfile => ⟨(h.recorded file hfile).1.mono hborn, (h.recorded file hfile).2⟩
  cases heffect with
  | quiet d => exact ⟨hrecorded, h.balanced, h.owned⟩
  | locked hfree => exact ⟨hrecorded, h.balanced, h.owned⟩
  | unlocked hguard => exact ⟨hrecorded, h.balanced, h.owned⟩
  | @published payload hfree =>
      refine ⟨fun file hfile => ?_, h.balanced, fun q hq lease hlease => ?_⟩
      · cases hfile
        refine ⟨fun w hw => ?_, fun _ => ⟨payload, rfl, howning.2.2⟩⟩
        cases hw
        exact ⟨Machine.mem_born_acts.mpr (.inl rfl), payload, rfl, howning.2.1⟩
      · obtain ⟨file, hfile, -⟩ := h.owned q hq lease hlease
        rw [hfree] at hfile
        cases hfile
  | @unlinked owner_id release =>
      refine ⟨(fun _ hfile => nomatch hfile), h.balanced, fun q hq lease hlease => ?_⟩
      obtain ⟨file, hfile, hwriter, -⟩ := h.owned q hq lease hlease
      cases release with
      | true =>
          obtain ⟨-, hnone, file', hfile', hwriter', -⟩ := howning
          rw [hfile, Option.some.injEq] at hfile'
          rw [← hfile', hwriter, Option.some.injEq] at hwriter'
          change (s.memory q).lease = some lease at hlease
          rw [hwriter', hnone] at hlease
          cases hlease
      | false =>
          obtain ⟨-, file', -, hfile', -, -, hgone⟩ := howning
          rw [hfile, Option.some.injEq] at hfile'
          exact absurd (hgone q (hfile' ▸ hwriter)) hq
  | remembered m hm =>
      have hmemory : p ∉ s.machine.dead → m.Balanced ∧ ∀ lease, m.lease = some lease →
          Owns s p lease.owner_id := by
        intro hp
        have hbalanced := h.balanced p hp
        have howned := h.owned p hp
        rcases hm with rfl | ⟨id, rfl, rfl⟩ | ⟨id, owner_id, rfl, rfl⟩ | ⟨id, rfl, rfl⟩
        · exact absurd howning id
        · refine ⟨hbalanced.attach, fun lease hlease => ?_⟩
          cases hbefore : (s.memory p).lease with
          | none =>
              rw [Memory.attach, hbefore] at hlease
              exact howned lease hlease
          | some before =>
              simp only [Memory.attach, hbefore, Option.some.injEq] at hlease
              subst hlease
              exact howned before hbefore
        · refine ⟨hbalanced.install howning.1, fun lease hlease => ?_⟩
          cases hlease
          exact howning.2
        · obtain ⟨hafter, hlease⟩ := hbalanced.release id
          refine ⟨hafter, fun lease hsome => ?_⟩
          rcases hlease with ⟨hsame, -⟩ | ⟨hnone, -⟩
          · rw [hsome, Option.map_some, eq_comm, Option.map_eq_some_iff] at hsame
            obtain ⟨before, hbefore, hid⟩ := hsame
            exact hid ▸ howned before hbefore
          · rw [hnone] at hsome
            cases hsome
      refine ⟨hrecorded, fun q hq => ?_, fun q hq lease hlease => ?_⟩
      · dsimp only
        by_cases hqp : q = p
        · rw [hqp, Function.update_self]
          exact (hmemory (hqp ▸ hq)).1
        · rw [Function.update_of_ne hqp]
          exact h.balanced q hq
      · dsimp only at hlease
        by_cases hqp : q = p
        · rw [hqp, Function.update_self] at hlease
          exact hqp ▸ (hmemory (hqp ▸ hq)).2 lease hlease
        · rw [Function.update_of_ne hqp] at hlease
          exact h.owned q hq lease hlease

theorem untouched_effect {o : SessionOp} (hne : q ≠ p) (heffect : SessionEffect q s o t)
    (howning : Owning py plat session_id q s o) : Untouched p s t := by
  have hborn : ∀ w, w ∈ s.machine.born → w ∈ (s.machine.acts q).born := fun w hw =>
    Machine.mem_born_acts.mpr (.inr hw)
  cases heffect with
  | quiet d => exact ⟨hborn, fun _ h => h, fun h => h, rfl, fun _ _ h _ => h, fun h => ⟨h, rfl⟩⟩
  | locked hfree =>
      refine ⟨hborn, fun _ h => h, fun h => h, rfl, fun _ _ h _ => h, fun hguard => ?_⟩
      rw [hfree] at hguard
      cases hguard
  | unlocked hguard' =>
      refine ⟨hborn, fun _ h => h, fun h => h, rfl, fun _ _ h _ => h, fun hguard => ?_⟩
      rw [hguard', Option.some.injEq] at hguard
      exact absurd hguard hne
  | published hfree =>
      refine ⟨hborn, fun _ h => h, fun h => h, rfl, fun _ file hfile _ => ?_, fun hguard => ?_⟩
      · rw [hfree] at hfile
        cases hfile
      · rw [howning.1, Option.some.injEq] at hguard
        exact absurd hguard hne
  | @unlinked owner_id release =>
      have hlocked : s.guard = some q := by
        cases release with
        | true => exact howning.1
        | false => exact howning.1
      refine ⟨hborn, fun _ h => h, fun h => h, rfl, fun hp file hfile hwriter => ?_,
        fun hguard => ?_⟩
      · cases release with
        | true =>
            obtain ⟨-, -, file', hfile', hwriter', -⟩ := howning
            rw [hfile, Option.some.injEq] at hfile'
            rw [← hfile', hwriter, Option.some.injEq] at hwriter'
            exact absurd hwriter'.symm hne
        | false =>
            obtain ⟨-, file', -, hfile', -, -, hgone⟩ := howning
            rw [hfile, Option.some.injEq] at hfile'
            exact absurd (hgone p (hfile' ▸ hwriter)) hp
      · rw [hlocked, Option.some.injEq] at hguard
        exact absurd hguard hne
  | remembered m hm =>
      exact ⟨hborn, fun _ h => h, fun h => h, Function.update_of_ne hne.symm _ _,
        fun _ _ h _ => h, fun h => ⟨h, rfl⟩⟩

/-- The rely/guarantee argument for session owners. -/
def owning (py : Interp) (plat : SessionPlatform) (session_id : String) :
    Discipline (sessionSystem py plat session_id) where
  Inv := SessionsSound py plat session_id
  Idle p s := p ∉ s.machine.dead
  Ok _ _ _ := True
  Rely := Untouched
  Guar := Owning py plat session_id
  rely_refl := Untouched.refl
  rely_trans := Untouched.trans
  idle_rely h := h.alive
  guar_inv h _ howning := sessions_effect h (performSession_effect plat _ _ _) howning
  guar_rely hne _ _ howning := untouched_effect hne (performSession_effect plat _ _ _) howning
  died_inv {p s} h := by
    have halive : ∀ q, q ∉ (s.machine.dies p).dead → q ∉ s.machine.dead := fun q hq hdead =>
      hq (Machine.mem_dead_dies.mpr (.inr hdead))
    exact ⟨fun file hfile => h.recorded file hfile, fun q hq => h.balanced q (halive q hq),
      fun q hq => h.owned q (halive q hq)⟩
  died_rely {p q s} hne _ := by
    refine ⟨fun _ h => h, fun w hw => Machine.mem_dead_dies.mpr (.inr hw), fun hp hdead => ?_,
      rfl, fun _ _ h _ => h, fun hguard => ⟨?_, rfl⟩⟩
    · rcases Machine.mem_dead_dies.mp hdead with heq | hgone
      · exact hne heq.symm
      · exact hp hgone
    · have hother : s.guard ≠ some q := by
        rw [hguard, ne_eq, Option.some.injEq]
        exact hne.symm
      exact (if_neg hother).trans hguard

/-! ## 4. What the calls promise -/

section Calls

variable {α : Type} {Q : α → SessionStore → Prop} {owner_id : String}

/-- `p` runs and has no lease. -/
def Free (p : Nat) (s : SessionStore) : Prop := p ∉ s.machine.dead ∧ (s.memory p).lease = none

theorem stable_running : (owning py plat session_id).Stable p fun s => p ∉ s.machine.dead :=
  fun hr h => hr.alive h

theorem stable_free : (owning py plat session_id).Stable p (Free p) :=
  fun hr h => ⟨hr.alive h.1, by rw [hr.memory]; exact h.2⟩

/-- `p` has the lock, and `file` is the record. -/
def Guarding (p : Nat) (file : Option OwnedFile) (s : SessionStore) : Prop :=
  s.guard = some p ∧ s.owner = file

theorem stable_guarding {file : Option OwnedFile} :
    (owning py plat session_id).Stable p (Guarding p file) :=
  fun hr h => ⟨(hr.guarded h.1).1, (hr.guarded h.1).2.trans h.2⟩

theorem wp_ownerGuard {body : SessionProg (Except PyError α)} {J : SessionStore → Prop}
    (hJ : (owning py plat session_id).Stable p J)
    (hacts : ∀ s, J s → J { s with machine := s.machine.acts p })
    (hrun : ∀ s, J s → p ∉ s.machine.dead)
    (hlock : ∀ s, J s → J { s with machine := s.machine.acts p, guard := some p })
    (hbody : ∀ s, J s → s.guard = some p →
      (owning py plat session_id).Wp p body (fun _ s => p ∉ s.machine.dead) s)
    (waits : Nat) (h : J s) :
    (owning py plat session_id).Wp p (ownerGuard py plat session_id body waits)
      (fun _ s => p ∉ s.machine.dead) s := by
  induction waits generalizing s with
  | zero => exact hrun s h
  | succ waits ih =>
      simp only [ownerGuard, Task.bind_ask]
      refine Discipline.Wp.call hJ h fun s hs _ _ => ⟨trivial, ?_⟩
      by_cases hfree : s.guard = none
      · have hperform : (sessionSystem py plat session_id).perform p s .lock
            = ({ s with machine := s.machine.acts p, guard := some p }, true) := by
          change performSession plat p s .lock = _
          simp only [performSession, SessionStore.apply, hfree, if_true]
        rw [hperform]
        refine Discipline.Wp.bind ((hbody _ (hlock s hs) rfl).imp fun result s hs => ?_)
        refine Discipline.Wp.call stable_running hs fun s hs _ _ => ⟨trivial, ?_⟩
        have hdead : (performSession plat p s .unlock).1.machine.dead = s.machine.dead := by
          simp only [performSession, SessionStore.apply]
          split <;> rfl
        exact (congrArg (p ∉ ·) hdead).mpr hs
      · have hperform : (sessionSystem py plat session_id).perform p s .lock
            = ({ s with machine := s.machine.acts p }, false) := by
          change performSession plat p s .lock = _
          simp only [performSession, SessionStore.apply, hfree, if_false]
        rw [hperform]
        exact ih (hacts s hs)

theorem wp_removeOwn (howns : Owns s p owner_id) (hfree : Free p s) (hguard : s.guard = some p) :
    (owning py plat session_id).Wp p (removeIfOwner owner_id true)
      (fun _ s => p ∉ s.machine.dead) s := by
  obtain ⟨file, hfile, hwriter, hid⟩ := howns
  have hstable : (owning py plat session_id).Stable p
      fun s => Free p s ∧ Guarding p (some file) s := stable_free.and stable_guarding
  simp only [removeIfOwner, Task.bind_ask]
  refine Discipline.Wp.call hstable ⟨hfree, hguard, hfile⟩ fun s hs _ _ => ⟨trivial, ?_⟩
  have hreply : ((sessionSystem py plat session_id).perform p s .read).2 = some file := hs.2.2
  rw [hreply]
  cases hcontent : file.content with
  | unreadable =>
      rw [OwnedFile.owner_id, hcontent] at hid
      cases hid
  | raising exc =>
      rw [OwnedFile.owner_id, hcontent] at hid
      cases hid
  | record payload =>
      rw [OwnedFile.owner_id, hcontent] at hid
      simp only [Option.map_some, hcontent, readJsonObject, hid, ne_eq, not_true_eq_false, if_false]
      refine Discipline.Wp.call hstable hs fun s hs _ _ => ⟨?_, hs.1.1⟩
      exact ⟨hs.2.1, hs.1.2, file, hs.2.2, hwriter, by rw [OwnedFile.owner_id, hcontent]; exact hid⟩

theorem wp_removeGone {file : OwnedFile} {payload : Payload}
    (hcontent : file.content = .record payload) (hreadable : Readable py plat session_id payload)
    (hgone : ∀ w ∈ file.writer, w ∈ s.machine.dead) (hfree : Free p s)
    (hguard : Guarding p (some file) s) :
    (owning py plat session_id).Wp p (removeIfOwner owner_id false)
      (fun _ s => Free p s ∧ s.guard = some p) s := by
  have hstable : (owning py plat session_id).Stable p fun s =>
      (Free p s ∧ Guarding p (some file) s) ∧ ∀ w ∈ file.writer, w ∈ s.machine.dead :=
    fun hr h => ⟨⟨stable_free hr h.1.1, stable_guarding hr h.1.2⟩,
      fun w hw => hr.dead w (h.2 w hw)⟩
  simp only [removeIfOwner, Task.bind_ask]
  refine Discipline.Wp.call hstable ⟨⟨hfree, hguard⟩, hgone⟩ fun s hs _ _ => ⟨trivial, ?_⟩
  have hreply : ((sessionSystem py plat session_id).perform p s .read).2 = some file := hs.1.2.2
  rw [hreply]
  simp only [Option.map_some, hcontent, readJsonObject]
  split
  · exact ⟨hs.1.1, hs.1.2.1⟩
  · refine Discipline.Wp.call hstable hs fun s hs _ _ => ⟨?_, hs.1.1, hs.1.2.1⟩
    exact ⟨hs.1.2.1, file, payload, hs.1.2.2, hcontent, hreadable, hs.2⟩

theorem wp_publishOwner {info : SessionOwnerInfo} (hwrote : plat.Wrote p info.toMapping)
    (hreadable : Readable py plat session_id info.toMapping) (attempts : Nat) (hfree : Free p s)
    (hguard : s.guard = some p) :
    (owning py plat session_id).Wp p (publishOwner py plat session_id info attempts)
      (fun _ s => p ∉ s.machine.dead) s := by
  induction attempts generalizing s with
  | zero => exact hfree.1
  | succ attempts ih =>
      have hstable : (owning py plat session_id).Stable p
          fun s => Free p s ∧ s.guard = some p :=
        stable_free.and fun hr h => (hr.guarded h).1
      simp only [publishOwner, Task.bind_ask]
      refine Discipline.Wp.call hstable ⟨hfree, hguard⟩ fun s hs _ _ =>
        ⟨⟨hs.2, hwrote, hreadable⟩, ?_⟩
      cases howner : s.owner with
      | none =>
          have hperform : (sessionSystem py plat session_id).perform p s (.publish info.toMapping)
              = ({ s with
                  machine := s.machine.acts p
                  owner := some { content := .record info.toMapping, writer := some p } },
                true) := by
            change performSession plat p s (.publish info.toMapping) = _
            simp only [performSession, SessionStore.apply, howner]
          rw [hperform]
          have howns : (owning py plat session_id).Stable p
              fun s => Free p s ∧ Owns s p info.owner_id :=
            fun hr h => ⟨stable_free hr h.1, hr.owns h.1.1 h.2⟩
          refine Discipline.Wp.call howns ⟨hs.1, _, rfl, rfl, (lookup_toMapping info).2.2.1⟩
            fun s hs _ _ => ⟨⟨hs.1.2, hs.2⟩, hs.1.1⟩
      | some file =>
          have hperform : (sessionSystem py plat session_id).perform p s (.publish info.toMapping)
              = ({ s with machine := s.machine.acts p }, false) := by
            change performSession plat p s (.publish info.toMapping) = _
            simp only [performSession, SessionStore.apply, howner]
          rw [hperform]
          have hknown : (owning py plat session_id).Stable p
              fun s => Free p s ∧ Guarding p (some file) s := stable_free.and stable_guarding
          refine Discipline.Wp.call hknown ⟨hs.1, hs.2, howner⟩ fun s hs _ _ => ⟨trivial, ?_⟩
          have hreply : ((sessionSystem py plat session_id).perform p s .read).2 = some file :=
            hs.2.2
          rw [hreply]
          cases hread : readJsonObject ((some file).map (·.content)) with
          | error exc => exact hs.1.1
          | ok existing? =>
              cases existing? with
              | none => exact absurd (readJsonObject_none hread) (fun h => nomatch h)
              | some payload =>
                  dsimp only
                  cases hmapping : fromMapping py plat session_id payload with
                  | error exc => exact hs.1.1
                  | ok info? =>
                      cases info? with
                      | none => exact hs.1.1
                      | some existing =>
                          refine Discipline.Wp.call hknown hs fun s hs hinv _ => ⟨trivial, ?_⟩
                          have hreply : ((sessionSystem py plat session_id).perform p s
                              (.alive payload)).2
                              = ownerAlive (plat.os (s.machine.acts p) p) payload := rfl
                          rw [hreply]
                          cases hjudged : ownerAlive (plat.os (s.machine.acts p) p) payload with
                          | error exc => exact hs.1.1
                          | ok alive =>
                              cases alive with
                              | true => exact hs.1.1
                              | false =>
                                  obtain ⟨f, hf, hcontent⟩ := readJsonObject_some hread
                                  cases hf
                                  have hrecord : file.content = .record payload := by
                                    rcases hcontent with hrecord | rfl
                                    · exact hrecord
                                    · cases hjudged
                                  have hgone := (hinv.recorded file hs.2.2).1.gone hrecord hjudged
                                  refine Discipline.Wp.bind ((wp_removeGone
                                    (s := { s with machine := s.machine.acts p }) hrecord
                                    ⟨existing, hmapping⟩ hgone hs.1 hs.2).imp
                                    fun result s hs => ?_)
                                  cases result with
                                  | error exc => exact hs.1.1
                                  | ok removed => exact ih hs.1 hs.2

/-- What `reuseLease` comes to: a handle of the lease, or no lease. A lease is
always that of the record on disk. -/
theorem wp_reuseLease (hrun : p ∉ s.machine.dead) :
    (owning py plat session_id).Wp p reuseLease
      (fun result s => p ∉ s.machine.dead ∧ (result = .ok none → Free p s)) s := by
  simp only [reuseLease, Task.bind_ask]
  refine Discipline.Wp.call stable_running hrun fun s hs hinv _ => ⟨trivial, ?_⟩
  have hreply : ((sessionSystem py plat session_id).perform p s .lease).2 = (s.memory p).lease :=
    rfl
  rw [hreply]
  cases hlease : (s.memory p).lease with
  | none => exact ⟨hs, fun _ => ⟨hs, hlease⟩⟩
  | some lease =>
      have hstable : (owning py plat session_id).Stable p
          fun s => p ∉ s.machine.dead ∧ Owns s p lease.owner_id :=
        fun hr h => ⟨hr.alive h.1, hr.owns h.1 h.2⟩
      refine Discipline.Wp.call hstable ⟨hs, hinv.owned p hs lease hlease⟩ fun s hs _ _ =>
        ⟨trivial, ?_⟩
      obtain ⟨file, hfile, -, hid⟩ := hs.2
      have hreply : ((sessionSystem py plat session_id).perform p s .read).2 = some file := hfile
      rw [hreply]
      cases hcontent : file.content with
      | unreadable =>
          rw [OwnedFile.owner_id, hcontent] at hid
          cases hid
      | raising exc =>
          rw [OwnedFile.owner_id, hcontent] at hid
          cases hid
      | record payload =>
          rw [OwnedFile.owner_id, hcontent] at hid
          simp only [Option.map_some, hcontent, readJsonObject, hid, if_true]
          refine Discipline.Wp.call stable_running hs.1 fun s hs _ _ => ⟨trivial, hs, ?_⟩
          exact fun h => by cases h

theorem wp_acquireLease {entrypoint : String} {waits : Nat} (hrun : p ∉ s.machine.dead)
    (hentry : validateEntrypoint entrypoint = .ok ()) :
    (owning py plat session_id).Wp p (acquireLease py plat session_id entrypoint waits)
      (fun _ s => p ∉ s.machine.dead) s := by
  refine Discipline.Wp.bind ((wp_reuseLease hrun).imp fun result s hs => ?_)
  cases result with
  | error exc => exact hs.1
  | ok handle? =>
      cases handle? with
      | some handle => exact hs.1
      | none =>
          simp only [Task.bind_ask]
          refine Discipline.Wp.call stable_free (hs.2 rfl) fun s hs _ _ => ⟨trivial, ?_⟩
          have hself : ((sessionSystem py plat session_id).perform p s .self).2
              = plat.self (s.machine.acts p) p := rfl
          rw [hself]
          have hwrote : ∀ draw, plat.Wrote p (newOwner session_id entrypoint
              (plat.self (s.machine.acts p) p) draw).toMapping := fun draw =>
            wrote_newOwner ⟨Machine.mem_born_acts.mpr (.inl rfl), hs.1⟩
          have hreadable : ∀ n, Readable py plat session_id (newOwner session_id entrypoint
              (plat.self (s.machine.acts p) p) (plat.uuid4_hex n, plat.time n)).toMapping :=
            fun n => readable_newOwner _ p n hentry
          generalize plat.self (s.machine.acts p) p = self at hwrote hreadable
          refine Discipline.Wp.call stable_free hs fun s hs _ _ => ⟨trivial, ?_⟩
          have hdraw : ((sessionSystem py plat session_id).perform p s .draw).2
              = (plat.uuid4_hex (s.machine.acts p).clock, plat.time (s.machine.acts p).clock) :=
            rfl
          rw [hdraw]
          exact wp_ownerGuard stable_free (fun s h => h) (fun s h => h.1) (fun s h => h)
            (fun s hs hguard => wp_publishOwner (hwrote _) (hreadable _) 3 hs hguard) waits hs

theorem wp_acquire {entrypoint : String} {require_existing : Bool} {waits : Nat}
    (hrun : p ∉ s.machine.dead) :
    (owning py plat session_id).Wp p
      (acquire py plat session_id entrypoint require_existing waits)
      (fun _ s => p ∉ s.machine.dead) s := by
  unfold acquire
  split
  · exact hrun
  · rename_i hvalid
    have hentry : validateEntrypoint entrypoint = .ok () := by
      obtain ⟨u, -, hentry⟩ := bind_ok hvalid
      exact hentry
    have hopen : (owning py plat session_id).Wp p (openDirectory py session_id require_existing)
        (fun _ s => p ∉ s.machine.dead) s := by
      unfold openDirectory
      split
      · refine Discipline.Wp.call stable_running hrun fun s hs _ _ => ⟨trivial, ?_⟩
        change (owning py plat session_id).Wp p (if s.directory then _ else _) _ _
        split
        · exact Discipline.Wp.call stable_running hs fun s hs _ _ => ⟨trivial, hs⟩
        · exact hs
      · exact Discipline.Wp.call stable_running hrun fun s hs _ _ => ⟨trivial, hs⟩
    refine Discipline.Wp.bind (hopen.imp fun result s hs => ?_)
    cases result with
    | error exc => exact hs
    | ok u => exact wp_acquireLease hs hentry

theorem wp_release {id waits : Nat} (hrun : p ∉ s.machine.dead) :
    (owning py plat session_id).Wp p (release py plat session_id id waits)
      (fun _ s => p ∉ s.machine.dead) s := by
  simp only [release, Task.bind_ask]
  refine Discipline.Wp.call stable_running hrun fun s hs hinv _ => ⟨trivial, ?_⟩
  have hperform : (sessionSystem py plat session_id).perform p s (.release id)
      = ({ s with
           machine := s.machine.acts p
           memory := Function.update s.memory p ((s.memory p).release id).1 },
        ((s.memory p).release id).2) := rfl
  rw [hperform]
  rcases ((hinv.balanced p hs).release id).2 with ⟨-, hnone⟩ | ⟨hfree, lease, hlease, hlast⟩
  · rw [hnone]
    exact hs
  · rw [hlast]
    dsimp only
    have hstable : (owning py plat session_id).Stable p
        fun s => Free p s ∧ Owns s p lease.owner_id :=
      fun hr h => ⟨stable_free hr h.1, hr.owns h.1.1 h.2⟩
    have hfree' : (Function.update s.memory p ((s.memory p).release id).1 p).lease = none := by
      rw [Function.update_self]
      exact hfree
    have hstart : (fun s => Free p s ∧ Owns s p lease.owner_id)
        { s with
          machine := s.machine.acts p
          memory := Function.update s.memory p ((s.memory p).release id).1 } :=
      ⟨⟨hs, hfree'⟩, hinv.owned p hs lease hlease⟩
    refine Discipline.Wp.bind ((wp_ownerGuard hstable (fun s h => h) (fun s h => h.1.1)
      (fun s h => h) (fun s h hguard => wp_removeOwn h.2 h.1 hguard) waits hstart).imp
      fun result s hs => ?_)
    split <;> exact hs

end Calls

theorem wp_sessionJob (job : SessionJob) (hrun : p ∉ s.machine.dead) :
    (owning py plat session_id).Wp p (job.prog py plat session_id)
      (fun _ s => p ∉ s.machine.dead) s := by
  cases job with
  | acquire entrypoint require_existing waits => exact (wp_acquire hrun).forget
  | release id waits => exact (wp_release hrun).forget

/-! ## 5. Runs -/

theorem sessions_safe (py : Interp) (plat : SessionPlatform) (session_id : String)
    (content : Option FileContent) (actions : List (Action SessionJob)) :
    (owning py plat session_id).Safe (sessionsWorld py plat session_id content actions) := by
  have hstart : (owning py plat session_id).Safe (sessionStart content) := by
    refine ⟨⟨fun file hfile => ?_, fun p _ => rfl, fun p _ lease h => nomatch h⟩,
      fun p h => nomatch h⟩
    obtain ⟨c, -, rfl⟩ := Option.map_eq_some_iff.mp hfile
    exact ⟨(fun w hw => nomatch hw), fun h => absurd rfl h⟩
  have hrun := Discipline.run (S := sessionSystem py plat session_id)
    (fun job p s _ hidle => wp_sessionJob job hidle) hstart
    (Runs.RunOk.of_forall (fun w action => match action with
      | .step p => fun _ _ _ => trivial
      | .start _ _ | .crash _ => trivial) actions) actions.length
  rwa [List.take_length] at hrun

/-- A live process with a handle of the record on disk. -/
def Holds (s : SessionStore) (p : Nat) : Prop :=
  s.machine.Running p ∧ ∃ h ∈ (s.memory p).handles, ∃ file, s.owner = some file
    ∧ file.owner_id = some (.str h.owner_id)

/-- Every handle of a live process is of the record on disk, which it wrote. -/
theorem SessionsSound.held (h : SessionsSound py plat session_id s) (hrun : p ∉ s.machine.dead)
    {handle : SessionHandle} (hhandle : handle ∈ (s.memory p).handles) :
    Owns s p handle.owner_id := by
  have hbalanced := h.balanced p hrun
  cases hlease : (s.memory p).lease with
  | none =>
      rw [hbalanced.of_none hlease] at hhandle
      cases hhandle
  | some lease =>
      have hid := ((hbalanced.of_lease hlease).2.2 handle hhandle).2
      exact hid ▸ h.owned p hrun lease hlease

theorem removed_step {w : World SessionOp SessionOp.Reply SessionStore}
    {action : Action SessionJob} {file : OwnedFile} (h : (owning py plat session_id).Safe w)
    (hfile : w.state.owner = some file)
    (hgone : ((sessionSystem py plat session_id).step w action).state.owner ≠ some file) :
    ∃ p, action = .step p ∧ (file.writer = some p ∨
      ((∃ payload, file.content = .record payload ∧ Readable py plat session_id payload)
        ∧ ∀ q ∈ file.writer, q ∈ w.state.machine.dead)) := by
  cases (sessionSystem py plat session_id).effect w action with
  | quiet heq => exact absurd (by rw [heq]; exact hfile) hgone
  | died heq => exact absurd (by rw [heq]; exact hfile) hgone
  | @call p o next hslot heq =>
      have howning := h.guar hslot trivial
      refine ⟨p, rfl, ?_⟩
      have heffect := performSession_effect plat p w.state o
      have hperform : (performSession plat p w.state o).1.owner ≠ some file := by
        rw [heq] at hgone
        exact hgone
      generalize (performSession plat p w.state o).1 = t at heffect hperform
      cases heffect with
      | quiet d => exact absurd hfile hperform
      | locked hfree => exact absurd hfile hperform
      | unlocked hguard => exact absurd hfile hperform
      | remembered m hm => exact absurd hfile hperform
      | published hfree =>
          rw [hfree] at hfile
          cases hfile
      | @unlinked owner_id release =>
          cases release with
          | true =>
              obtain ⟨-, -, file', hfile', hwriter, -⟩ := howning
              rw [hfile, Option.some.injEq] at hfile'
              exact .inl (hfile' ▸ hwriter)
          | false =>
              obtain ⟨-, file', payload, hfile', hcontent, hreadable, hdead⟩ := howning
              rw [hfile, Option.some.injEq] at hfile'
              subst hfile'
              exact .inr ⟨⟨payload, hcontent, hreadable⟩, hdead⟩

/-- A record that no call can read. -/
def Malformed (py : Interp) (plat : SessionPlatform) (session_id : String)
    (content : FileContent) : Prop :=
  ∀ payload, content = .record payload → ¬ Readable py plat session_id payload

theorem malformed_stays {content : FileContent} (h : Malformed py plat session_id content)
    (actions : List (Action SessionJob)) :
    (sessionsWorld py plat session_id (some content) actions).state.owner
      = some { content := content, writer := none } := by
  induction actions using List.reverseRecOn with
  | nil => rfl
  | append_singleton actions action ih =>
      by_contra hgone
      have hstep : sessionsWorld py plat session_id (some content) (actions ++ [action])
          = (sessionSystem py plat session_id).step
            (sessionsWorld py plat session_id (some content) actions) action := by
        simp [sessionsWorld, System.run]
      rw [hstep] at hgone
      obtain ⟨p, -, hwriter | ⟨⟨payload, hcontent, hreadable⟩, -⟩⟩ :=
        removed_step (sessions_safe py plat session_id (some content) actions) ih hgone
      · cases hwriter
      · exact h payload hcontent hreadable

/-! ## 6. Calls that no other call interferes with -/

section Alone

variable {α : Type} {owner_id entrypoint : String}

/-- The state that a call leaves and its result, where no other call
interferes. -/
abbrev alone (plat : SessionPlatform) (p : Nat) (prog : SessionProg α) (s : SessionStore) :
    SessionStore × α := prog.exec (performSession plat p) s

/-- Whenever `p` looks, it finds the owner dead. -/
def ToldDead (plat : SessionPlatform) (p : Nat) (m : Machine) (payload : Payload) : Prop :=
  ∀ n, ownerAlive (plat.os ((fun m => m.acts p)^[n] m) p) payload = .ok false

/-- The record is absent, or one that `p` may reclaim. -/
inductive Available (py : Interp) (plat : SessionPlatform) (session_id : String) (p : Nat)
    (s : SessionStore) : Prop where
  | absent (h : s.owner = none)
  | stale {file : OwnedFile} {payload : Payload} (hfile : s.owner = some file)
      (hcontent : file.content = .record payload) (hreadable : Readable py plat session_id payload)
      (htold : ToldDead plat p s.machine payload)

theorem alone_ownerGuard {body : SessionProg (Except PyError α)} (waits : Nat)
    (hfree : s.guard = none) :
    alone plat p (ownerGuard py plat session_id body (waits + 1)) s
      = ((performSession plat p (alone plat p body
            { s with machine := s.machine.acts p, guard := some p }).1 .unlock).1,
          (alone plat p body { s with machine := s.machine.acts p, guard := some p }).2) := by
  have hlock : performSession plat p s .lock
      = ({ s with machine := s.machine.acts p, guard := some p }, true) := by
    simp only [performSession, SessionStore.apply, hfree, if_true]
  simp only [alone, ownerGuard, Task.bind_ask, Task.exec_call, hlock, if_true, Task.exec_bind]
  rfl

theorem alone_publish_absent {info : SessionOwnerInfo} (attempts : Nat) (h : s.owner = none) :
    alone plat p (publishOwner py plat session_id info (attempts + 1)) s
      = ({ s with
           machine := (s.machine.acts p).acts p
           owner := some { content := .record info.toMapping, writer := some p }
           memory := Function.update s.memory p
             ((s.memory p).install (s.machine.clock + 2) info.owner_id) },
          .ok (s.machine.clock + 2)) := by
  have hpublish : performSession plat p s (.publish info.toMapping)
      = ({ s with
           machine := s.machine.acts p
           owner := some { content := .record info.toMapping, writer := some p } }, true) := by
    simp only [performSession, SessionStore.apply, h]
  simp only [alone, publishOwner, Task.bind_ask, Task.exec_call, hpublish, if_true]
  rfl

theorem alone_publish_stale {file : OwnedFile} {payload : Payload} (info : SessionOwnerInfo)
    (attempts : Nat) (hfile : s.owner = some file) (hcontent : file.content = .record payload)
    (hreadable : Readable py plat session_id payload) (htold : ToldDead plat p s.machine payload) :
    ∃ m, alone plat p (publishOwner py plat session_id info (attempts + 1)) s
      = alone plat p (publishOwner py plat session_id info attempts)
          { s with machine := m, owner := none } := by
  obtain ⟨existing, hexisting⟩ := hreadable
  have hpublish : performSession plat p s (.publish info.toMapping)
      = ({ s with machine := s.machine.acts p }, false) := by
    simp only [performSession, SessionStore.apply, hfile]
  have hread : ∀ m, performSession plat p { s with machine := m } .read
      = ({ s with machine := m.acts p }, some file) := fun m => by
    simp only [performSession, SessionStore.apply, hfile]
  have halive : performSession plat p { s with machine := (s.machine.acts p).acts p }
      (.alive payload) = ({ s with machine := ((s.machine.acts p).acts p).acts p }, .ok false) :=
    congrArg (Prod.mk _) (htold 3)
  have hid := fromMapping_owner_id hexisting
  refine ⟨((((s.machine.acts p).acts p).acts p).acts p).acts p, ?_⟩
  simp only [alone, publishOwner, Task.bind_ask, Task.exec_call, hpublish, hread, Option.map_some,
    hcontent, readJsonObject, hexisting, halive, removeIfOwner, hid, ne_eq, not_true_eq_false,
    if_false, Task.bind_call, Task.pure_eq, Task.bind_done, Bool.false_eq_true]
  rfl

/-- A process with a handle of the record, which it wrote. -/
def Held (s : SessionStore) (p handle : Nat) : Prop :=
  ∃ h ∈ (s.memory p).handles, h.id = handle ∧ Owns s p h.owner_id

theorem alone_publishOwner (info : SessionOwnerInfo) (attempts : Nat)
    (h : Available py plat session_id p s) :
    ∃ handle, (alone plat p (publishOwner py plat session_id info (attempts + 2)) s).2
        = .ok handle
      ∧ Held (alone plat p (publishOwner py plat session_id info (attempts + 2)) s).1 p handle := by
  have habsent : ∀ (t : SessionStore) (attempts : Nat), t.owner = none →
      ∃ handle, (alone plat p (publishOwner py plat session_id info (attempts + 1)) t).2
          = .ok handle
        ∧ Held (alone plat p (publishOwner py plat session_id info (attempts + 1)) t).1 p
          handle := by
    intro t attempts hnone
    rw [alone_publish_absent attempts hnone]
    refine ⟨_, rfl, ⟨t.machine.clock + 2, t.machine.clock + 2, info.owner_id⟩, ?_, rfl, _, rfl,
      rfl, (lookup_toMapping info).2.2.1⟩
    dsimp only
    rw [Function.update_self]
    exact List.mem_cons_self
  cases h with
  | absent hnone => exact habsent s (attempts + 1) hnone
  | stale hfile hcontent hreadable htold =>
      obtain ⟨m, heq⟩ := alone_publish_stale info (attempts + 1) hfile hcontent hreadable
        htold
      rw [heq]
      exact habsent _ attempts rfl

theorem Held.unlock {handle : Nat} (plat : SessionPlatform) (h : Held s p handle) :
    Held (performSession plat p s .unlock).1 p handle := by
  have hsame : (performSession plat p s .unlock).1.memory = s.memory
      ∧ (performSession plat p s .unlock).1.owner = s.owner := by
    simp only [performSession, SessionStore.apply]
    split <;> exact ⟨rfl, rfl⟩
  unfold Held Owns
  rw [hsame.1, hsame.2]
  exact h

theorem alone_openDirectory {require_existing : Bool}
    (h : require_existing = true → s.directory = true) :
    ∃ n, alone plat p (openDirectory py session_id require_existing) s
      = ({ s with machine := (fun m => m.acts p)^[n] s.machine, directory := true }, .ok ()) := by
  cases require_existing with
  | false => exact ⟨1, rfl⟩
  | true =>
      have hdir : performSession plat p s .isDir
          = ({ s with machine := s.machine.acts p }, true) :=
        congrArg (Prod.mk _) (h rfl)
      refine ⟨2, ?_⟩
      simp only [alone, openDirectory, if_true, Task.bind_ask, Task.exec_call, hdir]
      rfl

theorem Available.moved (h : Available py plat session_id p s) (n : Nat) (d : Bool)
    (guard : Option Nat) : Available py plat session_id p
      { s with machine := (fun m => m.acts p)^[n] s.machine, directory := d, guard := guard } := by
  cases h with
  | absent hnone => exact .absent hnone
  | stale hfile hcontent hreadable htold =>
      refine .stale hfile hcontent hreadable fun k => ?_
      rw [← Function.iterate_add_apply]
      exact htold (k + n)

theorem alone_acquireLease (waits : Nat) (hfree : s.guard = none)
    (hlease : (s.memory p).lease = none) (h : Available py plat session_id p s) :
    ∃ handle, (alone plat p (acquireLease py plat session_id entrypoint (waits + 1)) s).2
        = .ok handle
      ∧ Held (alone plat p (acquireLease py plat session_id entrypoint (waits + 1)) s).1 p
        handle := by
  have hperform : performSession plat p s .lease
      = ({ s with machine := s.machine.acts p }, none) := congrArg (Prod.mk _) hlease
  obtain ⟨info, hinfo⟩ : ∃ info : SessionOwnerInfo,
      alone plat p (acquireLease py plat session_id entrypoint (waits + 1)) s
        = alone plat p (ownerGuard py plat session_id (publishOwner py plat session_id info 3)
            (waits + 1)) { s with machine := ((s.machine.acts p).acts p).acts p } := by
    refine ⟨newOwner session_id entrypoint (plat.self ((s.machine.acts p).acts p) p)
      (plat.uuid4_hex (s.machine.clock + 3), plat.time (s.machine.clock + 3)), ?_⟩
    simp only [alone, acquireLease, reuseLease, Task.bind_ask, Task.bind_call, Task.exec_call,
      hperform]
    rfl
  rw [hinfo, alone_ownerGuard waits (by exact hfree)]
  obtain ⟨handle, hresult, hheld⟩ := alone_publishOwner info 1 (h.moved 4 s.directory (some p))
  exact ⟨handle, hresult, hheld.unlock plat⟩

theorem alone_acquire {require_existing : Bool} {waits : Nat} {t : SessionStore}
    (hsession : validateSessionId plat session_id = .ok ())
    (hentry : validateEntrypoint entrypoint = .ok ())
    (hopen : alone plat p (openDirectory py session_id require_existing) s = (t, .ok ())) :
    alone plat p (acquire py plat session_id entrypoint require_existing waits) s
      = alone plat p (acquireLease py plat session_id entrypoint waits) t := by
  have hvalid : (do validateSessionId plat session_id; validateEntrypoint entrypoint :
      Except PyError Unit) = .ok () := by rw [hsession]; exact hentry
  have hopen' : (openDirectory py session_id require_existing).exec (performSession plat p) s
      = (t, .ok ()) := hopen
  simp only [acquire, hvalid]
  refine (Task.exec_bind _ _ s).trans ?_
  rw [hopen']

/-- **Acquiring succeeds** where the lock is free and the record is absent or
one that the process may reclaim. -/
theorem alone_acquire_available {require_existing : Bool} (waits : Nat)
    (hsession : validateSessionId plat session_id = .ok ())
    (hentry : validateEntrypoint entrypoint = .ok ())
    (hdirectory : require_existing = true → s.directory = true) (hfree : s.guard = none)
    (hlease : (s.memory p).lease = none) (h : Available py plat session_id p s) :
    ∃ handle,
      (alone plat p (acquire py plat session_id entrypoint require_existing (waits + 1)) s).2
        = .ok handle
      ∧ Held (alone plat p
          (acquire py plat session_id entrypoint require_existing (waits + 1)) s).1 p handle := by
  have hopen : ∃ n, alone plat p (openDirectory py session_id require_existing) s
      = ({ s with machine := (fun m => m.acts p)^[n] s.machine, directory := true }, .ok ()) :=
    alone_openDirectory hdirectory
  obtain ⟨n, hopen⟩ := hopen
  rw [alone_acquire hsession hentry hopen]
  exact alone_acquireLease waits hfree hlease (h.moved n true s.guard)

theorem alone_acquire_leased {require_existing : Bool} (waits : Nat)
    (hsession : validateSessionId plat session_id = .ok ())
    (hentry : validateEntrypoint entrypoint = .ok ())
    (hdirectory : require_existing = true → s.directory = true)
    (hsound : SessionsSound py plat session_id s) (hrun : p ∉ s.machine.dead)
    (hlease : (s.memory p).lease ≠ none) :
    ∃ handle,
      (alone plat p (acquire py plat session_id entrypoint require_existing waits) s).2
        = .ok handle
      ∧ Held (alone plat p
          (acquire py plat session_id entrypoint require_existing waits) s).1 p handle := by
  obtain ⟨lease, hlease⟩ := Option.ne_none_iff_exists'.mp hlease
  have hopen : ∃ n, alone plat p (openDirectory py session_id require_existing) s
      = ({ s with machine := (fun m => m.acts p)^[n] s.machine, directory := true }, .ok ()) :=
    alone_openDirectory hdirectory
  obtain ⟨n, hopen⟩ := hopen
  rw [alone_acquire hsession hentry hopen]
  obtain ⟨file, hfile, hwriter, hid⟩ := hsound.owned p hrun lease hlease
  generalize (fun m => m.acts p)^[n] s.machine = m
  have hlookup : performSession plat p { s with machine := m, directory := true } .lease
      = ({ s with machine := m.acts p, directory := true }, some lease) :=
    congrArg (Prod.mk _) hlease
  have hread : performSession plat p { s with machine := m.acts p, directory := true } .read
      = ({ s with machine := (m.acts p).acts p, directory := true }, some file) :=
    congrArg (Prod.mk _) hfile
  cases hcontent : file.content with
  | unreadable =>
      rw [OwnedFile.owner_id, hcontent] at hid
      cases hid
  | raising exc =>
      rw [OwnedFile.owner_id, hcontent] at hid
      cases hid
  | record payload =>
      have hpayload := hid
      rw [OwnedFile.owner_id, hcontent] at hpayload
      simp only [alone, acquireLease, reuseLease, Task.bind_ask, Task.bind_call, Task.exec_call,
        hlookup, hread, Option.map_some, hcontent, readJsonObject, hpayload, if_true, Task.pure_eq,
        Task.bind_done, Task.exec_done]
      refine ⟨_, rfl, ⟨(m.clock + 3), lease.serial, lease.owner_id⟩, ?_, rfl, file, hfile, hwriter,
        hid⟩
      change _ ∈ (Function.update s.memory p ((s.memory p).attach (m.clock + 3)) p).handles
      rw [Function.update_self, Memory.attach, hlease]
      exact List.mem_cons_self

/-! ### A record that cannot be read -/

theorem fromMapping_nil : fromMapping py plat session_id [] = .ok none := by
  simp [fromMapping, Json.lookup, pyEq, scalarEq, Json.intValue?, Json.isNumber]

/-- The call fails and leaves the record. -/
def Refused (s : SessionStore) (result : SessionStore × Except PyError α) : Prop :=
  (∃ exc, result.2 = .error exc) ∧ result.1.owner = s.owner

theorem alone_publish_refused (p : Nat) (info : SessionOwnerInfo) {file : OwnedFile} (attempts : Nat)
    (hfile : s.owner = some file) (hbad : Malformed py plat session_id file.content) :
    Refused s (alone plat p (publishOwner py plat session_id info attempts) s) := by
  cases attempts with
  | zero => exact ⟨⟨_, rfl⟩, rfl⟩
  | succ attempts =>
      have hpublish : performSession plat p s (.publish info.toMapping)
          = ({ s with machine := s.machine.acts p }, false) := by
        simp only [performSession, SessionStore.apply, hfile]
      have hread : performSession plat p { s with machine := s.machine.acts p } .read
          = ({ s with machine := (s.machine.acts p).acts p }, some file) :=
        congrArg (Prod.mk _) hfile
      simp only [alone, publishOwner, Task.bind_ask, Task.exec_call, hpublish, hread,
        Option.map_some, Bool.false_eq_true, if_false]
      cases hcontent : file.content with
      | raising exc => exact ⟨⟨_, rfl⟩, rfl⟩
      | unreadable =>
          simp only [readJsonObject, fromMapping_nil]
          exact ⟨⟨_, rfl⟩, rfl⟩
      | record payload =>
          simp only [readJsonObject]
          cases hmapping : fromMapping py plat session_id payload with
          | error exc => exact ⟨⟨_, rfl⟩, rfl⟩
          | ok info? =>
              cases info? with
              | none => exact ⟨⟨_, rfl⟩, rfl⟩
              | some info => exact absurd ⟨info, hmapping⟩ (hbad payload hcontent)

theorem alone_guard_refused {info : SessionOwnerInfo} {file : OwnedFile} (attempts waits : Nat)
    (hfile : s.owner = some file) (hbad : Malformed py plat session_id file.content) :
    Refused s (alone plat p (ownerGuard py plat session_id
      (publishOwner py plat session_id info attempts) waits) s) := by
  induction waits generalizing s with
  | zero => exact ⟨⟨_, rfl⟩, rfl⟩
  | succ waits ih =>
      by_cases hfree : s.guard = none
      · rw [alone_ownerGuard waits hfree]
        obtain ⟨hresult, howner⟩ := alone_publish_refused p info attempts
          (s := { s with machine := s.machine.acts p, guard := some p }) hfile hbad
        refine ⟨hresult, Eq.trans ?_ howner⟩
        simp only [performSession, SessionStore.apply]
        split <;> rfl
      · have hlock : performSession plat p s .lock
            = ({ s with machine := s.machine.acts p }, false) := by
          simp only [performSession, SessionStore.apply, hfree, if_false]
        simp only [alone, ownerGuard, Task.bind_ask, Task.exec_call, hlock, Bool.false_eq_true,
          if_false]
        exact ih (s := { s with machine := s.machine.acts p }) hfile

/-- **Acquiring fails** where the record cannot be read, and leaves it. -/
theorem alone_acquire_refused {require_existing : Bool} {file : OwnedFile} (waits : Nat)
    (hlease : (s.memory p).lease = none) (hfile : s.owner = some file)
    (hbad : Malformed py plat session_id file.content) :
    Refused s (alone plat p
      (acquire py plat session_id entrypoint require_existing waits) s) := by
  unfold acquire
  split
  · exact ⟨⟨_, rfl⟩, rfl⟩
  · have hlease' : ∀ t : SessionStore, (t.memory p).lease = none → t.owner = some file →
        Refused t (alone plat p (acquireLease py plat session_id entrypoint waits) t) := by
      intro t hfree hfile
      have hlookup : performSession plat p t .lease
          = ({ t with machine := t.machine.acts p }, none) := congrArg (Prod.mk _) hfree
      simp only [alone, acquireLease, reuseLease, Task.bind_ask, Task.bind_call, Task.exec_call,
        hlookup, Task.pure_eq, Task.bind_done]
      exact alone_guard_refused 3 waits
        (s := { t with machine := ((t.machine.acts p).acts p).acts p }) hfile hbad
    have hopen : ∃ m d result, alone plat p (openDirectory py session_id require_existing) s
        = ({ s with machine := m, directory := d }, result) := by
      unfold openDirectory
      split
      · simp only [alone, Task.bind_ask, Task.exec_call]
        split <;> exact ⟨_, _, _, rfl⟩
      · exact ⟨_, _, _, rfl⟩
    obtain ⟨m, d, result, hopen⟩ := hopen
    have hopen' : (openDirectory py session_id require_existing).exec (performSession plat p) s
        = ({ s with machine := m, directory := d }, result) := hopen
    rw [alone, Task.exec_bind, hopen']
    cases result with
    | error exc => exact ⟨⟨_, rfl⟩, rfl⟩
    | ok u => exact hlease' { s with machine := m, directory := d } hlease hfile

/-! ### The last handle -/

/-- **Releasing the last handle** removes the record. -/
theorem alone_release_last {handle : SessionHandle} (waits : Nat)
    (hsound : SessionsSound py plat session_id s) (hrun : p ∉ s.machine.dead)
    (hhandles : (s.memory p).handles = [handle]) (hfree : s.guard = none) :
    (alone plat p (release py plat session_id handle.id (waits + 1)) s).1.owner = none := by
  obtain ⟨lease, hlease⟩ : ∃ lease, (s.memory p).lease = some lease := by
    cases hlease : (s.memory p).lease with
    | none =>
        have hnil := (hsound.balanced p hrun).of_none hlease
        rw [hhandles] at hnil
        cases hnil
    | some lease => exact ⟨lease, rfl⟩
  obtain ⟨hpos, hlength, hsame⟩ := (hsound.balanced p hrun).of_lease hlease
  have hreferences : lease.references = 1 := by
    rw [← hlength, hhandles]
    rfl
  have hserial : handle.serial = lease.serial := (hsame handle (by simp [hhandles])).1
  have hlast : (s.memory p).release handle.id = ({}, some lease.owner_id) := by
    simp [Memory.release, hhandles, hlease, hserial, hreferences]
  obtain ⟨file, hfile, hwriter, hid⟩ := hsound.owned p hrun lease hlease
  have hremove : ∀ t : SessionStore, t.owner = some file →
      (alone plat p (removeIfOwner lease.owner_id true) t).1.owner = none := by
    intro t hfile
    have hread : performSession plat p t .read
        = ({ t with machine := t.machine.acts p }, some file) := congrArg (Prod.mk _) hfile
    cases hcontent : file.content with
    | unreadable =>
        rw [OwnedFile.owner_id, hcontent] at hid
        cases hid
    | raising exc =>
        rw [OwnedFile.owner_id, hcontent] at hid
        cases hid
    | record payload =>
        rw [OwnedFile.owner_id, hcontent] at hid
        simp only [alone, removeIfOwner, Task.bind_ask, Task.exec_call, hread, Option.map_some,
          hcontent, readJsonObject, hid, ne_eq, not_true_eq_false, if_false]
        rfl
  let freed : SessionStore :=
    { s with
      machine := s.machine.acts p
      memory := Function.update s.memory p ((s.memory p).release handle.id).1 }
  have hperform : performSession plat p s (.release handle.id)
      = (freed, some lease.owner_id) := by
    rw [show some lease.owner_id = ((s.memory p).release handle.id).2 by rw [hlast]]
    rfl
  have hrelease : (alone plat p (release py plat session_id handle.id (waits + 1)) s).1
      = (alone plat p (ownerGuard py plat session_id (removeIfOwner lease.owner_id true)
          (waits + 1)) freed).1 := by
    simp only [alone, release, Task.bind_ask, Task.exec_call, hperform, Task.exec_bind]
    split <;> rfl
  have hunlocked : freed.guard = none := hfree
  rw [hrelease, alone_ownerGuard waits hunlocked]
  have hgone := hremove
    { freed with machine := freed.machine.acts p, guard := some p } hfile
  simp only [performSession, SessionStore.apply]
  split <;> exact hgone

end Alone

/-! ## 7. Every run -/

/-- What holds of the calls on one session at a point of a run. -/
structure SessionOwners (py : Interp) (plat : SessionPlatform) (session_id : String)
    (content : Option FileContent) (w : World SessionOp SessionOp.Reply SessionStore) :
    Prop where
  /-- At most one live process has a handle of the record on disk. -/
  exclusive : ∀ p q, Holds w.state p → Holds w.state q → p = q
  /-- Every handle of a live process is one of the record on disk. -/
  held : ∀ p, w.state.machine.Running p → ∀ h ∈ (w.state.memory p).handles,
    Owns w.state p h.owner_id
  /-- A release removes the record of its own owner. -/
  released : ∀ p owner_id next,
    w.slots p = .busy (.call (.unlink owner_id true) next) → Owns w.state p owner_id
  /-- A record goes by the hand of its owner, or when it can be read and its
  owner is gone. -/
  removed : ∀ action file, w.state.owner = some file →
    ((sessionSystem py plat session_id).step w action).state.owner ≠ some file →
    ∃ p, action = .step p ∧ (file.writer = some p ∨
      ((∃ payload, file.content = .record payload ∧ Readable py plat session_id payload)
        ∧ ∀ q ∈ file.writer, q ∈ w.state.machine.dead))
  /-- A record that cannot be read stays, and nobody gets a handle. -/
  malformed : ∀ c, content = some c → Malformed py plat session_id c →
    w.state.owner = some { content := c, writer := none }
      ∧ ∀ p, w.state.machine.Running p → (w.state.memory p).handles = []
  /-- With such a record a call to acquire fails and leaves it. -/
  refused : ∀ c, content = some c → Malformed py plat session_id c →
    ∀ p entrypoint require_existing waits, w.state.machine.Running p →
      Refused w.state (alone plat p
        (acquire py plat session_id entrypoint require_existing waits) w.state)
  /-- The release of the last handle removes the record. -/
  freed : ∀ p handle waits, w.state.machine.Running p → w.state.guard = none →
    (w.state.memory p).handles = [handle] →
    (alone plat p (release py plat session_id handle.id (waits + 1)) w.state).1.owner = none
  /-- A record that a process of the run wrote can be read. -/
  readable : ∀ file, w.state.owner = some file → file.writer ≠ none →
    ∃ payload, file.content = .record payload ∧ Readable py plat session_id payload
  /-- Acquiring succeeds where there is no record, where its owner is told
  dead, and where the process has a lease. -/
  acquired : ∀ p entrypoint require_existing waits, p ∉ w.state.machine.dead →
    validateSessionId plat session_id = .ok () → validateEntrypoint entrypoint = .ok () →
    (require_existing = true → w.state.directory = true) → w.state.guard = none →
    Available py plat session_id p w.state ∨ (w.state.memory p).lease ≠ none →
    ∃ handle,
      (alone plat p
        (acquire py plat session_id entrypoint require_existing (waits + 1)) w.state).2 = .ok handle
      ∧ Held (alone plat p
          (acquire py plat session_id entrypoint require_existing (waits + 1)) w.state).1 p handle

/-- **A session has at most one live owner**, whatever any number of processes
do, die and are started again with old PIDs. -/
theorem session_owners (py : Interp) (plat : SessionPlatform) (session_id : String)
    (content : Option FileContent) (actions : List (Action SessionJob)) :
    SessionOwners py plat session_id content
      (sessionsWorld py plat session_id content actions) := by
  have hsafe := sessions_safe py plat session_id content actions
  have hsound := hsafe.1
  have hheld : ∀ p, p ∉ (sessionsWorld py plat session_id content actions).state.machine.dead →
      ∀ h ∈ ((sessionsWorld py plat session_id content actions).state.memory p).handles,
        Owns (sessionsWorld py plat session_id content actions).state p h.owner_id :=
    fun p hrun h hh => hsound.held hrun hh
  have hmalformed : ∀ c, content = some c → Malformed py plat session_id c →
      (sessionsWorld py plat session_id content actions).state.owner
          = some { content := c, writer := none }
        ∧ ∀ p, p ∉ (sessionsWorld py plat session_id content actions).state.machine.dead →
          ((sessionsWorld py plat session_id content actions).state.memory p).handles = []
          ∧ ((sessionsWorld py plat session_id content actions).state.memory p).lease = none := by
    intro c hcontent hbad
    subst hcontent
    have howner := malformed_stays hbad actions
    refine ⟨howner, fun p hrun => ?_⟩
    have hnone : ∀ owner_id,
        ¬ Owns (sessionsWorld py plat session_id (some c) actions).state p owner_id := by
      rintro owner_id ⟨file, hfile, hwriter, -⟩
      rw [howner, Option.some.injEq] at hfile
      rw [← hfile] at hwriter
      cases hwriter
    refine ⟨List.eq_nil_iff_forall_not_mem.mpr fun h hh => hnone _ (hheld p hrun h hh), ?_⟩
    refine Option.eq_none_iff_forall_ne_some.mpr fun lease hlease => ?_
    exact hnone _ (hsound.owned p hrun lease hlease)
  exact {
    exclusive := by
      rintro p q ⟨hp, h, hh, -⟩ ⟨hq, h', hh', -⟩
      obtain ⟨file, hfile, hwriter, -⟩ := hheld p hp.2 h hh
      obtain ⟨file', hfile', hwriter', -⟩ := hheld q hq.2 h' hh'
      rw [hfile, Option.some.injEq] at hfile'
      rw [← hfile', hwriter, Option.some.injEq] at hwriter'
      exact hwriter'
    held := fun p hrun h hh => hheld p hrun.2 h hh
    released := fun p owner_id next hslot => (hsafe.guar hslot trivial).2.2
    removed := fun action file hfile hgone => removed_step hsafe hfile hgone
    malformed := fun c hcontent hbad => ⟨(hmalformed c hcontent hbad).1, fun p hrun =>
      ((hmalformed c hcontent hbad).2 p hrun.2).1⟩
    refused := fun c hcontent hbad p entrypoint require_existing waits hrun =>
      alone_acquire_refused waits ((hmalformed c hcontent hbad).2 p hrun.2).2
        (hmalformed c hcontent hbad).1 hbad
    freed := fun p handle waits hrun hfree hhandles =>
      alone_release_last waits hsound hrun.2 hhandles hfree
    readable := fun file hfile hwriter => (hsound.recorded file hfile).2 hwriter
    acquired := by
      intro p entrypoint require_existing waits hrun hsession hentry hdirectory hfree havailable
      by_cases hlease :
          ((sessionsWorld py plat session_id content actions).state.memory p).lease = none
      · have h := havailable.resolve_right (fun h => h hlease)
        exact alone_acquire_available waits hsession hentry hdirectory hfree hlease h
      · exact alone_acquire_leased (waits + 1) hsession hentry hdirectory hsound hrun hlease }

/-! ### A PID that is used again -/

/-- Acquiring succeeds whenever the owner on record has died. -/
def AcquiredAfterDeath (py : Interp) (plat : SessionPlatform) (session_id : String)
    (s : SessionStore) : Prop :=
  ∀ p entrypoint, p ∉ s.machine.dead → validateSessionId plat session_id = .ok () →
    validateEntrypoint entrypoint = .ok () → s.guard = none →
    (∀ file ∈ s.owner, ∃ q ∈ file.writer, q ∈ s.machine.dead) →
    ∃ handle, (alone plat p (acquire py plat session_id entrypoint false 1) s).2 = .ok handle

/-- A host without stat files, where every process has the PID 7. -/
def reusedPlatform : SessionPlatform where
  hostname _ := "host"
  pid _ := 7
  start_time _ := ""
  boot_id _ := ""
  kill _ _ _ := .ok .delivered
  stat _ _ _ := none
  pid_pos _ := by decide
  boot_host _ _ _ := rfl
  kill_running _ _ _ _ _ := fun h => nomatch h
  stat_running _ _ _ _ _ _ _ _ h := nomatch h
  uuid4_hex _ := "0123456789abcdef0123456789abcdef"
  time _ := .zero
  isprintable c := decide (32 ≤ c.toNat ∧ c.toNat ≤ 126)
  lock_error := ""
  hex_length _ := by decide
  hex_chars _ := by
    have h : ("0123456789abcdef0123456789abcdef".toList.all fun c =>
        c.isDigit || c ∈ "abcdef".toList) = true := by decide
    exact fun c hc => by simpa using List.all_eq_true.mp h c hc
  time_finite _ := by decide
  printable_ascii c hlow hhigh := by simp [hlow, hhigh]
  hostname_nonempty _ := by decide
  hostname_length _ := by decide
  hostname_printable _ := List.all_eq_true.mp (by decide)
  pid_length _ := by decide
  token_length _ _ _ _ _ h := nomatch h

/-- A process acquires the session and dies. -/
def ownerDies : List (Action SessionJob) :=
  .start 0 (.acquire "tui" false 1) :: List.replicate 8 (.step 0) ++ [.crash 0]

/-- **The session of the dead owner stays taken**: its PID is in use, and its
record has no start token. -/
theorem not_acquired_reused : ¬ AcquiredAfterDeath plainInterp reusedPlatform "s"
    (sessionsWorld plainInterp reusedPlatform "s" none ownerDies).state := by
  intro h
  have hdead : ∀ file ∈ (sessionsWorld plainInterp reusedPlatform "s" none ownerDies).state.owner,
      ∃ q ∈ file.writer,
        q ∈ (sessionsWorld plainInterp reusedPlatform "s" none ownerDies).state.machine.dead := by
    decide
  obtain ⟨handle, hacquired⟩ := h 1 "tui" (by decide) (by decide)
    (by decide) (by decide) hdead
  have hrefused : ¬ ((alone reusedPlatform 1 (acquire plainInterp reusedPlatform "s" "tui" false 1)
      (sessionsWorld plainInterp reusedPlatform "s" none ownerDies).state).2.toOption).isSome := by
    decide
  rw [hacquired] at hrefused
  exact hrefused rfl

end Agenthicc.Runners
