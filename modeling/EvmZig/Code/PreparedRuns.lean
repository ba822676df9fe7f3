import EvmZig.Code.Prepared

/-!
# Resolution is exact

Every view an execution remembers prepares a code of the hash it is remembered
under.  Where no two codes in use share a hash, that code is the one asked for.
-/

set_option autoImplicit false

namespace EvmZig.Code

open Zig

/-- The view shows exactly this code, and its jump destinations. -/
def View.Prepares (view : View) (code : List UInt8) : Prop :=
  view.bytes = code ∧ ∀ pc, isSet view.jumpdestMasks pc = true ↔ IsJumpDest code pc

theorem empty_prepares : View.empty.Prepares [] := by
  refine ⟨rfl, fun pc => ?_⟩
  constructor
  · intro marked
    rw [View.empty, isSet, List.getD_nil, BitVec.getLsbD_zero] at marked
    cases marked
  · rintro ⟨here, -⟩
    cases here

/-! ## Preparation -/

theorem markJumpDests_exact (blockScan : Option Arch) (bytes : List UInt8) {count : Nat}
    (room : bytes.length ≤ 64 * count) :
    ∃ masks, markJumpDests blockScan (List.replicate count 0#64) bytes = some masks ∧
      Exact bytes count masks := by
  cases blockScan with
  | some arch => exact markJumpDestBlocks_exact arch room
  | none =>
      obtain ⟨masks, ran, marks⟩ :=
        @wordsFrom_marks bytes 0 (List.replicate count 0#64) (by rwa [List.length_replicate])
      exact ⟨masks, ran, marks.exact⟩

theorem analyze_exact (blockScan : Option Arch) (granted : Bool) (bytes : List UInt8) :
    (∃ masks, analyze blockScan granted bytes = .ok masks ∧
        ∀ pc, isSet masks pc = true ↔ IsJumpDest bytes pc) ∨
      analyze blockScan granted bytes = .fail .preparedCodeCapacityExceeded := by
  rw [analyze]
  by_cases none : bytes = []
  · subst none
    exact .inl ⟨[], if_pos rfl, empty_prepares.2⟩
  rw [if_neg none]
  cases granted with
  | false => exact .inr rfl
  | true =>
      have room : bytes.length ≤ 64 * ((bytes.length + 63) / 64) := by omega
      obtain ⟨masks, marked, exact⟩ := markJumpDests_exact blockScan bytes room
      refine .inl ⟨masks, ?_, exact.2⟩
      rw [if_pos rfl, marked]
      rfl

theorem initBytecode_prepares (blockScan : Option Arch) (grants : Grants) (bytes : List UInt8) :
    (∃ view, initBytecode blockScan grants bytes = .ok view ∧ view.Prepares bytes) ∨
      initBytecode blockScan grants bytes = .fail .preparedCodeCapacityExceeded := by
  rw [initBytecode]
  by_cases wide : usizeMax < bytes.length + zeroPaddingLen
  · exact .inr (if_pos wide)
  rw [if_neg wide]
  cases grants.readBytes with
  | false => exact .inr rfl
  | true =>
      rw [if_pos rfl]
      rcases analyze_exact blockScan grants.masks bytes with ⟨masks, ran, exact⟩ | ran
      · refine .inl ⟨⟨bytes, masks⟩, ?_, rfl, exact⟩
        rw [ran]
        rfl
      · refine .inr ?_
        rw [ran]
        rfl

/-! ## What is remembered -/

section Sessions

variable {σ : Type} {keccak256 : List UInt8 → Hash} {codes : List UInt8 → Prop} {hash : Hash}
  {view : View} {after : Execution σ}

/-- A view of a code in use with this hash. -/
def Admitted (keccak256 : List UInt8 → Hash) (codes : List UInt8 → Prop) (hash : Hash) (view : View) :
    Prop :=
  ∃ code, codes code ∧ keccak256 code = hash ∧ view.Prepares code

/-- The backend returns only artifacts admitted for the hash, whatever else it does. -/
structure Backend.Honest (keccak256 : List UInt8 → Hash) (codes : List UInt8 → Prop)
    (backend : Backend σ) (inv : σ → Prop) : Prop where
  lookup : ∀ hash state, inv state → inv (backend.lookup hash state).2 ∧
    ∀ view, (backend.lookup hash state).1 = .returned (some view) → Admitted keccak256 codes hash view
  admitHashed : ∀ code state, codes code → inv state →
    inv (backend.admitHashed (keccak256 code) code state).2 ∧
      ∀ view, (backend.admitHashed (keccak256 code) code state).1 = .returned (some view) →
        Admitted keccak256 codes (keccak256 code) view
  lookupIndexed : ∀ lookup, backend.lookupIndexed = some lookup → ∀ index hash state, inv state →
    inv (lookup index hash state).2 ∧
      ∀ view, (lookup index hash state).1 = some view → Admitted keccak256 codes hash view
  admitIndexed : ∀ adding, backend.admitIndexed = some adding → ∀ index code state, codes code →
    inv state → inv (adding index (keccak256 code) code state).2 ∧
      ∀ view, (adding index (keccak256 code) code state).1 = .returned (some view) →
        Admitted keccak256 codes (keccak256 code) view

/-- Everything remembered is admitted. -/
structure Sound (keccak256 : List UInt8 → Hash) (codes : List UInt8 → Prop) (inv : σ → Prop)
    (execution : Execution σ) : Prop where
  backend : inv execution.backend
  transient : ∀ entry ∈ execution.transientEntries, Admitted keccak256 codes entry.hash entry.view
  memo0 : ∀ entry, execution.memo0 = some entry → Admitted keccak256 codes entry.hash entry.view
  memo1 : ∀ entry, execution.memo1 = some entry → Admitted keccak256 codes entry.hash entry.view

variable {inv : σ → Prop} {execution : Execution σ}

theorem Sound.initial {state : σ} (holds : inv state) :
    Sound keccak256 codes inv (initExecution state) where
  backend := holds
  transient := by
    intro entry member
    cases member
  memo0 := by
    intro entry held
    cases held
  memo1 := by
    intro entry held
    cases held

theorem Sound.moved (sound : Sound keccak256 codes inv execution) {state : σ} (holds : inv state) :
    Sound keccak256 codes inv { execution with backend := state } :=
  ⟨holds, sound.transient, sound.memo0, sound.memo1⟩

/-- A lane keeps what is remembered sound, and gives nothing or an admitted view. -/
def Keeps (keccak256 : List UInt8 → Hash) (codes : List UInt8 → Prop) (inv : σ → Prop) (hash : Hash) :
    Outcome (Execution σ) ResolveError (Option View) → Prop
  | .ok view after => Sound keccak256 codes inv after ∧
      ∀ found, view = some found → Admitted keccak256 codes hash found
  | .fail _ after => Sound keccak256 codes inv after
  | .illegal => False

def Gives (keccak256 : List UInt8 → Hash) (codes : List UInt8 → Prop) (inv : σ → Prop) (hash : Hash) :
    Outcome (Execution σ) ResolveError View → Prop
  | .ok view after => Sound keccak256 codes inv after ∧ Admitted keccak256 codes hash view
  | .fail _ after => Sound keccak256 codes inv after
  | .illegal => False

theorem admission_keeps {answer : Answer × σ} (sound : Sound keccak256 codes inv execution)
    (holds : inv answer.2)
    (admitted : ∀ view, answer.1 = .returned (some view) → Admitted keccak256 codes hash view) :
    Keeps keccak256 codes inv hash (admission execution answer) := by
  obtain ⟨answer, state⟩ := answer
  cases answer with
  | returned view =>
      refine ⟨sound.moved holds, ?_⟩
      rintro found rfl
      exact admitted found rfl
  | codeHashMismatch => exact sound.moved holds
  | failed =>
      refine ⟨sound.moved holds, ?_⟩
      rintro found ⟨⟩

variable {call : ResolveCall} {backend : Backend σ}

theorem resolveIndexed_keeps (honest : backend.Honest keccak256 codes inv)
    (inUse : codes call.rawCode) (hashed : call.codeHash = keccak256 call.rawCode)
    (sound : Sound keccak256 codes inv execution) :
    Keeps keccak256 codes inv call.codeHash (resolveIndexed backend call execution) := by
  have idle : Keeps keccak256 codes inv call.codeHash (.ok none execution) :=
    ⟨sound, by rintro found ⟨⟩⟩
  rw [resolveIndexed]
  split
  · split
    · rename_i lookup adding hasLookup hasAdmit
      obtain ⟨holds, admitted⟩ :=
        honest.lookupIndexed lookup hasLookup call.index call.codeHash _ sound.backend
      split
      · rename_i view state found
        rw [found] at holds admitted
        refine ⟨sound.moved holds, ?_⟩
        rintro _ ⟨⟩
        exact admitted view rfl
      · rename_i state found
        rw [found] at holds
        split
        · have answered := honest.admitIndexed adding hasAdmit call.index call.rawCode state inUse holds
          rw [← hashed] at answered
          exact admission_keeps sound answered.1 answered.2
        · exact ⟨sound.moved holds, by rintro found ⟨⟩⟩
    · exact idle
  · exact idle

theorem resolveHashed_keeps (honest : backend.Honest keccak256 codes inv)
    (inUse : codes call.rawCode) (hashed : call.codeHash = keccak256 call.rawCode)
    (sound : Sound keccak256 codes inv execution) :
    Keeps keccak256 codes inv call.codeHash (resolveHashed backend call execution) := by
  obtain ⟨holds, admitted⟩ := honest.lookup call.codeHash _ sound.backend
  rw [resolveHashed]
  split
  · rename_i view state found
    rw [found] at holds admitted
    refine ⟨sound.moved holds, ?_⟩
    rintro _ ⟨⟩
    exact admitted view rfl
  · rename_i answer state _ found
    rw [found] at holds
    split
    · have answered := honest.admitHashed call.rawCode state inUse holds
      rw [← hashed] at answered
      exact admission_keeps sound answered.1 answered.2
    · exact ⟨sound.moved holds, by rintro found ⟨⟩⟩

theorem transientGet_admitted (sound : Sound keccak256 codes inv execution)
    (found : transientGet execution hash = some view) : Admitted keccak256 codes hash view := by
  obtain ⟨entry, held, rfl⟩ := Option.map_eq_some_iff.mp found
  have admitted := sound.transient entry (List.mem_of_find?_eq_some held)
  have same : entry.hash = hash := by
    have test := List.find?_some held
    simpa using test
  rwa [same] at admitted

theorem resolveTransient_gives (blockScan : Option Arch) (inUse : codes call.rawCode)
    (hashed : call.codeHash = keccak256 call.rawCode) (sound : Sound keccak256 codes inv execution)
    (absent : transientGet execution call.codeHash = none) :
    Gives keccak256 codes inv call.codeHash (resolveTransient blockScan call execution) := by
  rw [resolveTransient]
  rcases initBytecode_prepares blockScan call.grants call.rawCode with ⟨view, ran, prepares⟩ | ran
  · have admitted : Admitted keccak256 codes call.codeHash view :=
      ⟨call.rawCode, inUse, hashed.symm, prepares⟩
    rw [ran]
    dsimp only
    split
    · split
      · rw [absent, if_neg (by simp)]
        refine ⟨⟨sound.backend, ?_, sound.memo0, sound.memo1⟩, admitted⟩
        intro entry member
        rcases List.mem_cons.mp member with rfl | member
        · exact admitted
        · exact sound.transient entry member
      · exact ⟨sound, admitted⟩
    · exact sound
  · rw [ran]
    exact sound

theorem orNext_gives {lane : Action (Execution σ) ResolveError (Option View)}
    {next : Action (Execution σ) ResolveError View}
    (kept : Keeps keccak256 codes inv hash (lane execution))
    (given : ∀ after, lane execution = .ok none after → Sound keccak256 codes inv after →
      Gives keccak256 codes inv hash (next after)) :
    Gives keccak256 codes inv hash (orNext lane next execution) := by
  rw [orNext, Action.bind_run]
  cases ran : lane execution with
  | illegal =>
      rw [ran] at kept
      exact kept
  | fail error after =>
      rw [ran] at kept
      exact kept
  | ok view after =>
      rw [ran] at kept
      cases view with
      | none => exact given after ran kept.1
      | some view => exact ⟨kept.1, kept.2 view rfl⟩

/-! ## The lanes together -/

theorem Sound.loaded (sound : Sound keccak256 codes inv execution) (hash : Hash) :
    Keeps keccak256 codes inv hash
      (Action.read (fun execution => transientGet execution hash) execution) :=
  ⟨sound, fun _ found => transientGet_admitted sound found⟩

theorem onBackend_keeps {backend : Option (Backend σ)}
    {lane : Backend σ → Action (Execution σ) ResolveError (Option View)}
    (sound : Sound keccak256 codes inv execution)
    (kept : ∀ held, backend = some held → Keeps keccak256 codes inv hash (lane held execution)) :
    Keeps keccak256 codes inv hash (onBackend backend lane execution) := by
  cases backend with
  | none => exact ⟨sound, by rintro found ⟨⟩⟩
  | some backend => exact kept backend rfl

theorem admission_transient {answer : Answer × σ} {view : Option View}
    (ran : admission execution answer = .ok view after) :
    after.transientEntries = execution.transientEntries := by
  obtain ⟨answer, state⟩ := answer
  cases answer with
  | returned found =>
      cases ran
      rfl
  | codeHashMismatch => cases ran
  | failed =>
      cases ran
      rfl

/-- The lane by hash leaves the map as it is. -/
theorem resolveHashed_transient {view : Option View}
    (ran : resolveHashed backend call execution = .ok view after) :
    after.transientEntries = execution.transientEntries := by
  rw [resolveHashed] at ran
  split at ran
  · cases ran
    rfl
  · split at ran
    · exact admission_transient ran
    · cases ran
      rfl

theorem onBackend_hashed_transient {backend : Option (Backend σ)} {view : Option View}
    (ran : onBackend backend (fun backend => resolveHashed backend call) execution = .ok view after) :
    after.transientEntries = execution.transientEntries := by
  cases backend with
  | none =>
      cases ran
      rfl
  | some backend => exact resolveHashed_transient ran

variable {service : Option (Backend σ)}

theorem resolveUncached_gives (blockScan : Option Arch)
    (honest : ∀ backend, service = some backend → backend.Honest keccak256 codes inv)
    (inUse : codes call.rawCode) (hashed : call.codeHash = keccak256 call.rawCode)
    (sound : Sound keccak256 codes inv execution) :
    Gives keccak256 codes inv call.codeHash (resolveUncached blockScan service call execution) := by
  rw [resolveUncached]
  apply orNext_gives
  · exact onBackend_keeps sound fun backend held =>
      resolveIndexed_keeps (honest backend held) inUse hashed sound
  intro indexed _ sound
  apply orNext_gives (sound.loaded call.codeHash)
  intro same unread _
  obtain ⟨absent, rfl⟩ : transientGet indexed call.codeHash = none ∧ indexed = same := by
    cases held : transientGet indexed call.codeHash with
    | none =>
        rw [Action.read, held] at unread
        cases unread
        exact ⟨rfl, rfl⟩
    | some view =>
        rw [Action.read, held] at unread
        cases unread
  apply orNext_gives
  · exact onBackend_keeps sound fun backend held =>
      resolveHashed_keeps (honest backend held) inUse hashed sound
  intro after ran sound
  refine resolveTransient_gives blockScan inUse hashed sound ?_
  rwa [transientGet, onBackend_hashed_transient ran]

/-! ## The memo -/

theorem memoGet_admitted (sound : Sound keccak256 codes inv execution)
    (found : memoGet execution hash = some view) : Admitted keccak256 codes hash view := by
  have first : ∀ entry, execution.memo0 = some entry → entry.hash = hash → entry.view = view →
      Admitted keccak256 codes hash view := by
    rintro entry held rfl rfl
    exact sound.memo0 entry held
  have second : ∀ entry, execution.memo1 = some entry → entry.hash = hash → entry.view = view →
      Admitted keccak256 codes hash view := by
    rintro entry held rfl rfl
    exact sound.memo1 entry held
  rw [memoGet] at found
  split at found
  · rename_i entry other held kept
    split at found
    · exact first entry held ‹_› (Option.some.inj found)
    split at found
    · exact second other kept ‹_› (Option.some.inj found)
    cases found
  · rename_i entry held _
    split at found
    · exact first entry held ‹_› (Option.some.inj found)
    cases found
  · rename_i other _ kept
    split at found
    · exact second other kept ‹_› (Option.some.inj found)
    cases found
  · cases found

theorem Sound.memoPut (sound : Sound keccak256 codes inv execution)
    (admitted : Admitted keccak256 codes hash view) :
    Sound keccak256 codes inv (memoPut ⟨hash, view⟩ execution) := by
  rw [Code.memoPut]
  split
  · refine ⟨sound.backend, sound.transient, sound.memo0, ?_⟩
    rintro entry ⟨⟩
    exact admitted
  · refine ⟨sound.backend, sound.transient, ?_, sound.memo1⟩
    rintro entry ⟨⟩
    exact admitted

/-! ## Whole executions -/

theorem resolve_gives (blockScan : Option Arch)
    (honest : ∀ backend, service = some backend → backend.Honest keccak256 codes inv)
    (inUse : codes call.rawCode) (hashed : call.codeHash = keccak256 call.rawCode)
    (sound : Sound keccak256 codes inv execution) :
    Gives keccak256 codes inv call.codeHash (resolve blockScan service call execution) := by
  rw [resolve]
  by_cases none : call.rawCode = []
  · rw [if_pos none]
    refine ⟨sound, [], none ▸ inUse, ?_, empty_prepares⟩
    rw [hashed, none]
  rw [if_neg none]
  cases found : memoGet execution call.codeHash with
  | some view => exact ⟨sound, memoGet_admitted sound found⟩
  | none =>
      have given := resolveUncached_gives blockScan honest inUse hashed sound
      cases ran : resolveUncached blockScan service call execution with
      | illegal =>
          rw [ran] at given
          exact given
      | fail error after =>
          rw [ran] at given
          exact given
      | ok view after =>
          rw [ran] at given
          exact ⟨given.1.memoPut given.2, given.2⟩

/-- Where no two codes in use share a hash, an admitted view is of the code asked for. -/
theorem Admitted.prepares
    (distinct : ∀ code other, codes code → codes other → keccak256 code = keccak256 other → code = other)
    {code : List UInt8} (inUse : codes code)
    (admitted : Admitted keccak256 codes (keccak256 code) view) : view.Prepares code := by
  obtain ⟨other, used, same, prepares⟩ := admitted
  rwa [distinct other code used inUse same] at prepares

/-- Every view the calls return prepares the code of its call. -/
theorem resolveAll_prepares (blockScan : Option Arch)
    (distinct : ∀ code other, codes code → codes other → keccak256 code = keccak256 other → code = other)
    (honest : ∀ backend, service = some backend → backend.Honest keccak256 codes inv)
    (calls : List ResolveCall)
    (hashed : ∀ call ∈ calls, codes call.rawCode ∧ call.codeHash = keccak256 call.rawCode)
    (execution : Execution σ) (sound : Sound keccak256 codes inv execution) :
    ∃ results, resolveAll blockScan service calls execution = some results ∧
      results.map Prod.fst = calls ∧
      ∀ call view, (call, .ok view) ∈ results → view.Prepares call.rawCode := by
  induction calls generalizing execution with
  | nil =>
      refine ⟨[], rfl, rfl, ?_⟩
      intro call view member
      cases member
  | cons call rest hyp =>
      obtain ⟨inUse, same⟩ := hashed call List.mem_cons_self
      have given := resolve_gives blockScan honest inUse same sound
      have remaining := fun other member => hashed other (List.mem_cons_of_mem call member)
      cases ran : resolve blockScan service call execution with
      | illegal =>
          rw [ran] at given
          exact given.elim
      | fail error after =>
          rw [ran] at given
          obtain ⟨results, rested, listed, exact⟩ := hyp remaining after given
          refine ⟨(call, .error error) :: results, ?_, ?_, ?_⟩
          · rw [resolveAll, ran]
            dsimp only
            rw [rested]
            rfl
          · rw [List.map_cons, listed]
          · intro other view member
            rcases List.mem_cons.mp member with head | member
            · cases head
            · exact exact other view member
      | ok found after =>
          rw [ran] at given
          obtain ⟨results, rested, listed, exact⟩ := hyp remaining after given.1
          have prepares : found.Prepares call.rawCode := by
            have admitted := given.2
            rw [same] at admitted
            exact admitted.prepares distinct inUse
          refine ⟨(call, .ok found) :: results, ?_, ?_, ?_⟩
          · rw [resolveAll, ran]
            dsimp only
            rw [rested]
            rfl
          · rw [List.map_cons, listed]
          · intro other view member
            rcases List.mem_cons.mp member with head | member
            · cases head
              exact prepares
            · exact exact other view member

end Sessions

/-! ## Reported mismatches -/

section Mismatches

variable {σ : Type} {backend : Backend σ} {call : ResolveCall} {execution after : Execution σ}

/-- The indexed lane asks for an admission, and the backend reports a mismatch. -/
def IndexedMismatch (backend : Backend σ) (call : ResolveCall) (state : σ) : Prop :=
  call.index ≤ maxIndex ∧ call.admits = true ∧
    ∃ lookup adding, backend.lookupIndexed = some lookup ∧ backend.admitIndexed = some adding ∧
      (lookup call.index call.codeHash state).1 = none ∧
      (adding call.index call.codeHash call.rawCode (lookup call.index call.codeHash state).2).1 =
        .codeHashMismatch

/-- The lane by hash asks for an admission, and the backend reports a mismatch. -/
def HashedMismatch (backend : Backend σ) (call : ResolveCall) (state : σ) : Prop :=
  call.admits = true ∧
    (∀ view, (backend.lookup call.codeHash state).1 ≠ .returned (some view)) ∧
    (backend.admitHashed call.codeHash call.rawCode (backend.lookup call.codeHash state).2).1 =
      .codeHashMismatch

/-- An error of code preparation, and not a mismatch. -/
def Mismatched {α : Type} : Outcome (Execution σ) ResolveError α → Prop
  | .fail .codeHashMismatch _ => True
  | _ => False

theorem admission_mismatched {answer : Answer × σ} :
    Mismatched (admission execution answer) ↔ answer.1 = .codeHashMismatch := by
  obtain ⟨answer, state⟩ := answer
  cases answer with
  | returned view => exact ⟨False.elim, fun same => by cases same⟩
  | codeHashMismatch => exact ⟨fun _ => rfl, fun _ => trivial⟩
  | failed => exact ⟨False.elim, fun same => by cases same⟩

theorem resolveIndexed_mismatched :
    Mismatched (resolveIndexed backend call execution) ↔
      IndexedMismatch backend call execution.backend := by
  rw [resolveIndexed, IndexedMismatch]
  by_cases inside : call.index ≤ maxIndex
  · rw [if_pos inside]
    cases hasLookup : backend.lookupIndexed with
    | none => exact ⟨False.elim, fun ⟨_, _, _, _, held, _⟩ => by cases held⟩
    | some lookup =>
        cases hasAdmit : backend.admitIndexed with
        | none => exact ⟨False.elim, fun ⟨_, _, _, _, _, held, _⟩ => by cases held⟩
        | some adding =>
            dsimp only
            cases found : lookup call.index call.codeHash execution.backend with
            | mk view state =>
                cases view with
                | some view =>
                    refine ⟨False.elim, ?_⟩
                    rintro ⟨_, _, _, _, ⟨⟩, _, missed, _⟩
                    rw [found] at missed
                    cases missed
                | none =>
                    dsimp only
                    cases policy : call.admits with
                    | false => exact ⟨False.elim, fun ⟨_, wanted, _⟩ => by cases wanted⟩
                    | true =>
                        rw [if_pos rfl, admission_mismatched]
                        constructor
                        · intro answered
                          refine ⟨inside, rfl, lookup, adding, rfl, rfl, ?_, ?_⟩
                          · rw [found]
                          · rw [found]
                            exact answered
                        · rintro ⟨_, _, _, _, ⟨⟩, ⟨⟩, _, answered⟩
                          rw [found] at answered
                          exact answered
  · rw [if_neg inside]
    exact ⟨False.elim, fun ⟨reached, _⟩ => (inside reached).elim⟩

theorem resolveHashed_mismatched :
    Mismatched (resolveHashed backend call execution) ↔
      HashedMismatch backend call execution.backend := by
  rw [resolveHashed, HashedMismatch]
  split
  · rename_i view state found
    refine ⟨False.elim, ?_⟩
    rintro ⟨_, missed, _⟩
    rw [found] at missed
    exact (missed view rfl).elim
  · rename_i answer state missed found
    rw [found]
    cases policy : call.admits with
    | false => exact ⟨False.elim, fun ⟨wanted, _⟩ => by cases wanted⟩
    | true =>
        rw [if_pos rfl, admission_mismatched]
        refine ⟨fun answered => ⟨rfl, ?_, answered⟩, fun ⟨_, _, answered⟩ => answered⟩
        rintro view rfl
        exact missed view rfl

theorem orNext_mismatched {lane : Action (Execution σ) ResolveError (Option View)}
    {next : Action (Execution σ) ResolveError View} :
    Mismatched (orNext lane next execution) ↔
      Mismatched (lane execution) ∨
        ∃ after, lane execution = .ok none after ∧ Mismatched (next after) := by
  rw [orNext, Action.bind_run]
  cases ran : lane execution with
  | illegal => exact ⟨False.elim, by rintro (⟨⟨⟩⟩ | ⟨_, ⟨⟩, _⟩)⟩
  | fail error after =>
      cases error with
      | codeHashMismatch => exact ⟨Or.inl, fun _ => trivial⟩
      | preparedCodeCapacityExceeded =>
          exact ⟨False.elim, by rintro (⟨⟨⟩⟩ | ⟨_, ⟨⟩, _⟩)⟩
  | ok view after =>
      cases view with
      | none =>
          refine ⟨fun failed => .inr ⟨after, rfl, failed⟩, ?_⟩
          rintro (⟨⟨⟩⟩ | ⟨_, ⟨⟩, failed⟩)
          exact failed
      | some view => exact ⟨False.elim, by rintro (⟨⟨⟩⟩ | ⟨_, ⟨⟩, _⟩)⟩

theorem resolveTransient_not_mismatched (blockScan : Option Arch) :
    ¬ Mismatched (resolveTransient blockScan call execution) := by
  rw [resolveTransient]
  rcases initBytecode_prepares blockScan call.grants call.rawCode with ⟨view, ran, -⟩ | ran
  · rw [ran]
    dsimp only
    split
    · split
      · split
        · exact id
        · exact id
      · exact id
    · exact id
  · rw [ran]
    exact id

/-- A resolution reports a mismatch exactly when an admission it asks for does. -/
theorem resolve_mismatched (blockScan : Option Arch) (service : Option (Backend σ)) :
    Mismatched (resolve blockScan service call execution) ↔
      call.rawCode ≠ [] ∧ memoGet execution call.codeHash = none ∧
        ∃ backend, service = some backend ∧
          (IndexedMismatch backend call execution.backend ∨
            ∃ missed, resolveIndexed backend call execution = .ok none missed ∧
              transientGet missed call.codeHash = none ∧
              HashedMismatch backend call missed.backend) := by
  rw [resolve]
  by_cases empty : call.rawCode = []
  · rw [if_pos empty]
    exact ⟨False.elim, fun ⟨nonempty, _⟩ => (nonempty empty).elim⟩
  rw [if_neg empty]
  cases found : memoGet execution call.codeHash with
  | some view => exact ⟨False.elim, fun ⟨_, missed, _⟩ => by cases missed⟩
  | none =>
      have carried : Mismatched (match resolveUncached blockScan service call execution with
          | .ok view after => .ok view (memoPut ⟨call.codeHash, view⟩ after)
          | .fail error after => .fail error after
          | .illegal => .illegal) ↔
          Mismatched (resolveUncached blockScan service call execution) := by
        cases resolveUncached blockScan service call execution with
        | illegal => exact Iff.rfl
        | fail error after => cases error <;> exact Iff.rfl
        | ok view after => exact Iff.rfl
      refine carried.trans ?_
      rw [resolveUncached, orNext_mismatched]
      cases service with
      | none =>
          refine ⟨?_, fun ⟨_, _, _, held, _⟩ => by cases held⟩
          rintro (⟨⟨⟩⟩ | ⟨after, ⟨⟩, failed⟩)
          rw [orNext_mismatched] at failed
          rcases failed with ⟨⟨⟩⟩ | ⟨after, -, failed⟩
          rw [orNext_mismatched] at failed
          rcases failed with ⟨⟨⟩⟩ | ⟨after, ⟨⟩, failed⟩
          exact (resolveTransient_not_mismatched blockScan failed).elim
      | some backend =>
          have hashed : ∀ missed : Execution σ, Mismatched (orNext
              (Action.read fun execution => transientGet execution call.codeHash)
              (orNext (onBackend (some backend) fun backend => resolveHashed backend call)
                (resolveTransient blockScan call)) missed) ↔
              transientGet missed call.codeHash = none ∧
                HashedMismatch backend call missed.backend := by
            intro missed
            rw [orNext_mismatched]
            constructor
            · rintro (⟨⟨⟩⟩ | ⟨after, read, failed⟩)
              cases absent : transientGet missed call.codeHash with
              | some view =>
                  rw [Action.read, absent] at read
                  cases read
              | none =>
                  rw [Action.read, absent] at read
                  cases read
                  rw [orNext_mismatched] at failed
                  rcases failed with failed | ⟨after, -, failed⟩
                  · exact ⟨rfl, resolveHashed_mismatched.mp failed⟩
                  · exact (resolveTransient_not_mismatched blockScan failed).elim
            · rintro ⟨absent, failed⟩
              refine .inr ⟨missed, ?_, ?_⟩
              · rw [Action.read, absent]
              · exact orNext_mismatched.mpr (.inl (resolveHashed_mismatched.mpr failed))
          constructor
          · rintro (failed | ⟨missed, ran, failed⟩)
            · exact ⟨empty, rfl, backend, rfl, .inl (resolveIndexed_mismatched.mp failed)⟩
            · exact ⟨empty, rfl, backend, rfl, .inr ⟨missed, ran, (hashed missed).mp failed⟩⟩
          · rintro ⟨_, _, _, ⟨⟩, failed | ⟨missed, ran, failed⟩⟩
            · exact .inl (resolveIndexed_mismatched.mpr failed)
            · exact .inr ⟨missed, ran, (hashed missed).mpr failed⟩

end Mismatches

/-! ## The whole -/

/-- Against a backend that returns only artifacts admitted for the hash asked for, over codes in use
that do not collide, every view returned shows its code.  Whatever the backend, a mismatch is
reported exactly when an admission asked for reports one: bytes are compared nowhere else. -/
theorem resolve_exact {σ : Type} (keccak256 : List UInt8 → Hash) (codes : List UInt8 → Prop)
    (distinct : ∀ code other, codes code → codes other → keccak256 code = keccak256 other → code = other)
    (inv : σ → Prop) (service : Option (Backend σ))
    (honest : ∀ backend, service = some backend → backend.Honest keccak256 codes inv)
    (state : σ) (holds : inv state) (blockScan : Option Arch) (calls : List ResolveCall)
    (hashed : ∀ call ∈ calls, codes call.rawCode ∧ call.codeHash = keccak256 call.rawCode) :
    (∃ results, resolveAll blockScan service calls (initExecution state) = some results ∧
      results.map Prod.fst = calls ∧
      ∀ call view, (call, .ok view) ∈ results → view.Prepares call.rawCode) ∧
    ∀ call (execution : Execution σ), Mismatched (resolve blockScan service call execution) ↔
      call.rawCode ≠ [] ∧ memoGet execution call.codeHash = none ∧
        ∃ backend, service = some backend ∧
          (IndexedMismatch backend call execution.backend ∨
            ∃ missed, resolveIndexed backend call execution = .ok none missed ∧
              transientGet missed call.codeHash = none ∧
              HashedMismatch backend call missed.backend) :=
  ⟨resolveAll_prepares blockScan distinct honest calls hashed _ (Sound.initial holds),
    fun _ _ => resolve_mismatched blockScan service⟩

/-- `JUMPDEST`, and `PUSH1 0x5b`. -/
def sampleHashes : Hash × Hash :=
  (⟨[0x9f, 0x50, 0x16, 0x48, 0x28, 0x97, 0x6b, 0x6b, 0xaa, 0x47, 0x9e, 0xa3, 0x9c, 0x71, 0x8c, 0x74,
    0x5b, 0xbc, 0x0d, 0x25, 0x21, 0xb6, 0x7d, 0xfd, 0xe8, 0x47, 0x4c, 0xbd, 0xc9, 0x71, 0x10, 0x57],
      rfl⟩,
   ⟨[0x64, 0xa2, 0xc7, 0xf3, 0x14, 0x67, 0xd0, 0x43, 0x13, 0x6f, 0x1b, 0x7d, 0x1e, 0x3d, 0x39, 0x1d,
    0x9d, 0x38, 0x03, 0x89, 0xa4, 0x36, 0xcd, 0xfa, 0xbe, 0xa4, 0x2e, 0x8f, 0x9d, 0x73, 0x92, 0x69],
      rfl⟩)

def sampleKeccak256 (code : List UInt8) : Hash :=
  if code = [0x5b] then sampleHashes.1 else sampleHashes.2

def sampleCall (rawCode : List UInt8) : ResolveCall :=
  { codeHash := sampleKeccak256 rawCode, rawCode, index := 0, admits := true,
    grants := ⟨true, true, true, true⟩ }

/-- A backend that holds one view, under the hash of `JUMPDEST`. -/
def sampleBackend (view : View) : Backend Unit where
  lookup hash state := (.returned (if hash = sampleHashes.1 then some view else none), state)
  admitHashed _ _ state := (.failed, state)
  lookupIndexed := none
  admitIndexed := none

theorem resolve_exact_pool :
    ∃ masks results, resolveAll none (some (sampleBackend ⟨[0x5b], masks⟩))
        [sampleCall [0x60, 0x5b], sampleCall [0x5b], sampleCall [0x60, 0x5b]] (initExecution ()) =
          some results ∧
      ∀ call view, (call, .ok view) ∈ results → view.Prepares call.rawCode := by
  let codes (code : List UInt8) := code = [0x5b] ∨ code = [0x60, 0x5b]
  obtain ⟨masks, -, -, marks⟩ := @markJumpDests_exact none [0x5b] 1 (by decide)
  have admitted : Admitted sampleKeccak256 codes sampleHashes.1 ⟨[0x5b], masks⟩ :=
    ⟨[0x5b], .inl rfl, rfl, rfl, marks⟩
  have distinct : ∀ code other, codes code → codes other →
      sampleKeccak256 code = sampleKeccak256 other → code = other := by
    rintro code other (rfl | rfl) (rfl | rfl) same
    · rfl
    · exact absurd same (by decide)
    · exact absurd same (by decide)
    · rfl
  have honest : (sampleBackend ⟨[0x5b], masks⟩).Honest sampleKeccak256 codes fun _ => True := by
    refine ⟨?_, ?_, ?_, ?_⟩
    · intro hash state _
      refine ⟨trivial, fun view found => ?_⟩
      have held : (if hash = sampleHashes.1 then some (⟨[0x5b], masks⟩ : View) else none) =
          some view := Answer.returned.inj found
      split at held
      · rename_i same
        cases held
        exact same ▸ admitted
      · cases held
    · exact fun code state _ _ => ⟨trivial, fun view found => by cases found⟩
    · exact fun lookup held => by cases held
    · exact fun adding held => by cases held
  obtain ⟨⟨results, ran, -, exact⟩, -⟩ := resolve_exact sampleKeccak256 codes distinct
    (fun _ => True) (some (sampleBackend ⟨[0x5b], masks⟩))
    (by
      rintro backend ⟨⟩
      exact honest)
    () trivial none [sampleCall [0x60, 0x5b], sampleCall [0x5b], sampleCall [0x60, 0x5b]]
    (by
      intro call member
      simp only [List.mem_cons, List.not_mem_nil, or_false] at member
      rcases member with rfl | rfl | rfl
      · exact ⟨.inr rfl, rfl⟩
      · exact ⟨.inl rfl, rfl⟩
      · exact ⟨.inr rfl, rfl⟩)
  exact ⟨masks, results, ran, exact⟩

/-- A `STOP` that the backend looks up for `JUMPDEST` is returned as it is. -/
theorem resolve_unreported :
    ∃ after, resolve none (some (sampleBackend ⟨[0x00], [0#64]⟩)) (sampleCall [0x5b])
        (initExecution ()) = .ok ⟨[0x00], [0#64]⟩ after ∧
      (sampleCall [0x5b]).rawCode ≠ [0x00] :=
  ⟨_, rfl, by decide⟩

end EvmZig.Code
