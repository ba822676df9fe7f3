import EvmZig.State.Books

/-!
# The list of changed accounts

A row stamped as changed in the running attempt is on the attempt's list of
changed accounts.  A revert cuts the list and gives the stamps back; what it
gives back was stamped when its checkpoint was opened.
-/

set_option autoImplicit false

namespace EvmZig.State

open Lib Zig

/-- The dirty stamp and the journal stamp of every account row. -/
abbrev Stamps : Type := AccountId → Generation × Generation

/-! ## Stamps given back -/

/-- Undoing an entry gives back the stamps it holds. -/
def Entry.giveBack (stamps : Stamps) : Entry → Stamps
  | .account undo => Function.update stamps undo.account (undo.dirtyTransaction, undo.journaledScope)
  | _ => stamps

/-- The stamps once the entries are undone, newest first. -/
def Journal.rewind (entries : Journal) (stamps : Stamps) : Stamps :=
  entries.foldl Entry.giveBack stamps

def Journal.Gives (entries : Journal) (id : AccountId) : Prop :=
  ∃ undo, Entry.account undo ∈ entries ∧ undo.account = id

namespace Journal

variable {entries newer : Journal} {stamps : Stamps} {id : AccountId}

theorem rewind_append (newer entries : Journal) (stamps : Stamps) :
    rewind (newer ++ entries) stamps = rewind entries (rewind newer stamps) :=
  List.foldl_append ..

theorem rewind_others (others : ∀ undo, Entry.account undo ∉ entries) (stamps : Stamps) :
    rewind entries stamps = stamps := by
  induction entries with
  | nil => rfl
  | cons entry entries ih =>
      have rest := ih fun undo member => others undo (List.mem_cons_of_mem _ member)
      cases entry with
      | account undo => exact absurd List.mem_cons_self (others undo)
      | _ => exact rest

/-- An entry for the account makes up for a stamp. -/
theorem rewind_update (gives : Gives entries id) (stamps : Stamps) (stamp : Generation × Generation) :
    rewind entries (Function.update stamps id stamp) = rewind entries stamps := by
  induction entries generalizing stamps with
  | nil =>
      obtain ⟨undo, member, -⟩ := gives
      cases member
  | cons entry entries ih =>
      have later : (∀ undo, entry = .account undo → undo.account ≠ id) → Gives entries id := by
        intro differs
        obtain ⟨undo, member, same⟩ := gives
        rcases List.mem_cons.mp member with here | rest
        · exact absurd same (differs undo here.symm)
        · exact ⟨undo, rest, same⟩
      cases entry with
      | account undo =>
          change rewind entries (Function.update (Function.update stamps id stamp) undo.account _) =
            rewind entries (Function.update stamps undo.account _)
          by_cases same : undo.account = id
          · rw [same, Function.update_idem]
          · have differs : ∀ other, Entry.account undo = .account other → other.account ≠ id :=
              fun other equal => Entry.account.inj equal ▸ same
            rw [Function.update_comm (Ne.symm same)]
            exact ih (later differs) _
      | _ => exact ih (later fun undo equal => nomatch equal) stamps

theorem rewind_apply (spared : ¬Gives entries id) : rewind entries stamps id = stamps id := by
  induction entries generalizing stamps with
  | nil => rfl
  | cons entry entries ih =>
      have rest : ¬Gives entries id :=
        fun ⟨undo, member, same⟩ => spared ⟨undo, List.mem_cons_of_mem _ member, same⟩
      cases entry with
      | account undo =>
          refine (ih rest).trans (Function.update_of_ne (fun same => ?_) _ _)
          exact spared ⟨undo, List.mem_cons_self, same.symm⟩
      | _ => exact ih rest

theorem Gives.append (gives : Gives entries id) (newer : Journal) : Gives (newer ++ entries) id := by
  obtain ⟨undo, member, same⟩ := gives
  exact ⟨undo, List.mem_append_right _ member, same⟩

end Journal

open Journal

/-- The list holds every stamped account, at present and as every open checkpoint would leave it. -/
def Enrolled (transaction : Generation) : Stamps → Journal → List Checkpoint → List AccountId → Prop
  | stamps, _, [], changed => ∀ id, (stamps id).1 = transaction → id ∈ changed
  | stamps, journal, held :: scopes, changed =>
      (∀ id, (stamps id).1 = transaction → id ∈ changed) ∧
        held.changedAccountsLen ≤ changed.length ∧
        (∀ id, (stamps id).2 = held.scope → Gives (WorldState.above journal held.journalLen) id) ∧
        Enrolled transaction (rewind (WorldState.above journal held.journalLen) stamps)
          (WorldState.below journal held.journalLen) scopes (changed.take held.changedAccountsLen)

/-- Each open scope is the parent of the one opened in it. -/
def Chained : Generation → List Checkpoint → Prop
  | _, [] => True
  | scope, held :: scopes => held.scope = scope ∧ Chained held.parentScope scopes

namespace Enrolled

open WorldState

variable {transaction : Generation} {stamps : Stamps} {journal newer : Journal}
  {held : Checkpoint} {scopes : List Checkpoint} {changed : List AccountId}

theorem listed (enrolled : Enrolled transaction stamps journal scopes changed) (id : AccountId)
    (stamped : (stamps id).1 = transaction) : id ∈ changed := by
  cases scopes with
  | nil => exact enrolled id stamped
  | cons held scopes => exact enrolled.1 id stamped

/-- Entries on top, with the stamps they would give back. -/
theorem push (enrolled : Enrolled transaction stamps journal scopes changed)
    (inside : Inside journal scopes) {later : Stamps} (back : rewind newer later = stamps)
    (dirty : ∀ id, (later id).1 = (stamps id).1)
    (covered : ∀ held rest, scopes = held :: rest → ∀ id, (later id).2 = held.scope →
      (stamps id).2 = held.scope ∨ Gives newer id) :
    Enrolled transaction later (newer ++ journal) scopes changed := by
  have still : ∀ id, (later id).1 = transaction → id ∈ changed :=
    fun id stamped => enrolled.listed id ((dirty id).symm.trans stamped)
  cases scopes with
  | nil => exact still
  | cons held scopes =>
      obtain ⟨-, within, gives, inner⟩ := enrolled
      refine ⟨still, within, fun id stamped => ?_, ?_⟩
      · rw [above_push inside.1]
        rcases covered held scopes rfl id stamped with before | fresh
        · exact (gives id before).append newer
        · obtain ⟨undo, member, same⟩ := fresh
          exact ⟨undo, List.mem_append_left _ member, same⟩
      · rw [above_push inside.1, below_push inside.1, rewind_append, back]
        exact inner

/-- An account whose row has an entry above the newest checkpoint is stamped and listed. -/
theorem enlist (enrolled : Enrolled transaction stamps journal scopes changed) {id : AccountId}
    {scope : Generation} (chained : Chained scope scopes) (covered : (stamps id).2 = scope) :
    Enrolled transaction (Function.update stamps id (transaction, scope)) journal scopes
      (changed ++ [id]) := by
  have stamped : ∀ other, (Function.update stamps id (transaction, scope) other).1 = transaction →
      other ∈ changed ++ [id] := by
    intro other stamped
    by_cases same : other = id
    · exact List.mem_append_right _ (List.mem_singleton.mpr same)
    · rw [Function.update_of_ne same] at stamped
      exact List.mem_append_left _ (enrolled.listed other stamped)
  cases scopes with
  | nil => exact stamped
  | cons held scopes =>
      obtain ⟨-, within, gives, inner⟩ := enrolled
      obtain ⟨current, -⟩ := chained
      refine ⟨stamped, ?_, fun other journaled => ?_, ?_⟩
      · rw [List.length_append]
        exact within.trans (Nat.le_add_right _ _)
      · by_cases same : other = id
        · rw [same]
          exact gives id (covered.trans current.symm)
        · rw [Function.update_of_ne same] at journaled
          exact gives other journaled
      · rw [rewind_update (gives id (covered.trans current.symm)), List.take_append_of_le_length within]
        exact inner

theorem opened (enrolled : Enrolled transaction stamps journal scopes changed)
    (length : held.journalLen = journal.length) (listed : held.changedAccountsLen = changed.length)
    (fresh : ∀ id, (stamps id).2 ≠ held.scope) :
    Enrolled transaction stamps journal (held :: scopes) changed := by
  refine ⟨enrolled.listed, listed.le, fun id stamped => absurd stamped (fresh id), ?_⟩
  rw [length, above_self, below_self, listed, List.take_length]
  exact enrolled

/-- The checkpoint around takes the entries of the one committed. -/
theorem committed (enrolled : Enrolled transaction stamps journal (held :: scopes) changed)
    (inside : Inside journal (held :: scopes)) :
    Enrolled transaction stamps journal scopes changed := by
  obtain ⟨now, within, gives, inner⟩ := enrolled
  cases scopes with
  | nil => exact now
  | cons outer scopes =>
      obtain ⟨-, shorter, covers, deeper⟩ := inner
      have short : outer.changedAccountsLen ≤ held.changedAccountsLen := by
        rw [List.length_take] at shorter
        exact shorter.trans (Nat.min_le_left _ _)
      have split : above journal outer.journalLen =
          above journal held.journalLen ++ above (below journal held.journalLen) outer.journalLen := by
        conv_lhs => rw [← above_append_below journal held.journalLen]
        exact above_push inside.2.1
      have rest : below journal outer.journalLen =
          below (below journal held.journalLen) outer.journalLen := by
        conv_lhs => rw [← above_append_below journal held.journalLen]
        exact below_push inside.2.1
      refine ⟨now, short.trans within, fun id stamped => ?_, ?_⟩
      · rw [split]
        by_cases given : Gives (above journal held.journalLen) id
        · obtain ⟨undo, member, same⟩ := given
          exact ⟨undo, List.mem_append_left _ member, same⟩
        · exact (covers id ((congrArg Prod.snd (rewind_apply given)).trans stamped)).append _
      · rw [split, rest, rewind_append]
        rw [List.take_take, Nat.min_eq_left short] at deeper
        exact deeper

theorem reverted (enrolled : Enrolled transaction stamps journal (held :: scopes) changed) :
    Enrolled transaction (rewind (above journal held.journalLen) stamps)
      (below journal held.journalLen) scopes (changed.take held.changedAccountsLen) :=
  enrolled.2.2.2

end Enrolled

namespace WorldState

variable {env : Env} {licence : Licence} {self after : WorldState} {scopes : List Checkpoint}
  {held : Checkpoint}

/-! ## Stamps of a state -/

def stamps (self : WorldState) : Stamps := fun id =>
  ((self.world.accounts.row id).map fun row => (row.dirtyTransaction, row.journaledScope)).getD (0, 0)

theorem stamps_of_row {id : AccountId} {row : AccountRow}
    (held : self.world.accounts.row id = some row) :
    self.stamps id = (row.dirtyTransaction, row.journaledScope) := by
  rw [stamps, held]
  rfl

theorem SameFaces.stamps (quiet : SameFaces env self after) : after.stamps = self.stamps := by
  funext id
  cases found : self.world.accounts.row id with
  | some row =>
      obtain ⟨row', held, shows⟩ := quiet.kept id row found
      rw [stamps_of_row held, stamps_of_row found]
      exact congrArg (fun face : AccountFace => (face.dirtyTransaction, face.journaledScope)) shows
  | none =>
      have before : self.stamps id = (0, 0) := by
        rw [WorldState.stamps, found]
        rfl
      cases later : after.world.accounts.row id with
      | none =>
          rw [before, WorldState.stamps, later]
          rfl
      | some row' =>
          rcases quiet.row id row' later with ⟨row, here, -⟩ | ⟨address, -, -, rfl⟩
          · rw [found] at here
            cases here
          · rw [before, stamps_of_row later]
            rfl

theorem Recast.stamps {id : AccountId} {row : AccountRow} {face : AccountFace}
    (recast : Recast self after id row face) :
    after.stamps = Function.update self.stamps id (face.dirtyTransaction, face.journaledScope) := by
  funext other
  by_cases same : other = id
  · subst same
    obtain ⟨row', held, shows⟩ := recast.here
    rw [stamps_of_row held, Function.update_self, ← shows]
    rfl
  · rw [Function.update_of_ne same, WorldState.stamps, recast.elsewhere same]
    rfl

/-! ## What every step keeps -/

/-- Every account stamped in the running attempt is listed, whatever is reverted. -/
structure Enlisted (state : WorldState) (scopes : List Checkpoint) : Prop where
  inside : Inside state.journal scopes
  chained : Chained state.lifetime.scope scopes
  enrolled : Enrolled state.lifetime.transaction state.stamps state.journal scopes state.changedAccounts

namespace Enlisted

theorem listed (enlisted : Enlisted self scopes) {id : AccountId} {row : AccountRow}
    (held : self.world.accounts.row id = some row)
    (dirty : row.dirtyTransaction = self.lifetime.transaction) : id ∈ self.changedAccounts :=
  enlisted.enrolled.listed id ((congrArg Prod.fst (stamps_of_row held)).trans dirty)

/-- The stamps and the list stay, and entries for other things come on top. -/
theorem quiet (enlisted : Enlisted self scopes) (stamps : after.stamps = self.stamps)
    (changed : after.changedAccounts = self.changedAccounts)
    (journal : ∃ newer, after.journal = newer ++ self.journal ∧ ∀ undo, Entry.account undo ∉ newer)
    (transaction : after.lifetime.transaction = self.lifetime.transaction)
    (scope : after.lifetime.scope = self.lifetime.scope) : Enlisted after scopes := by
  obtain ⟨newer, journal, others⟩ := journal
  refine ⟨?_, ?_, ?_⟩
  · rw [journal]
    exact enlisted.inside.push
  · rw [scope]
    exact enlisted.chained
  · rw [journal, transaction, changed, stamps]
    exact enlisted.enrolled.push enlisted.inside (rewind_others others _) (fun _ => rfl)
      fun _ _ _ _ stamped => .inl stamped

theorem same (enlisted : Enlisted self scopes) (accounts : after.world.accounts = self.world.accounts)
    (changed : after.changedAccounts = self.changedAccounts) (journal : after.journal = self.journal)
    (transaction : after.lifetime.transaction = self.lifetime.transaction)
    (scope : after.lifetime.scope = self.lifetime.scope) : Enlisted after scopes := by
  have stamps : after.stamps = self.stamps := by
    funext id
    rw [WorldState.stamps, accounts]
    rfl
  exact enlisted.quiet stamps changed ⟨[], journal, fun _ member => nomatch member⟩ transaction scope

theorem booked (enlisted : Enlisted self scopes) (booked : Booked env licence self after)
    (lifetime : after.lifetime = self.lifetime) : Enlisted after scopes := by
  have transaction := congrArg Lifetimes.transaction lifetime
  have scope := congrArg Lifetimes.scope lifetime
  have unstamped : ∀ {id : AccountId} {row : AccountRow} {face : AccountFace},
      Recast self after id row face →
      (face.dirtyTransaction, face.journaledScope) = (row.dirtyTransaction, row.journaledScope) →
      after.stamps = self.stamps := by
    intro id row face recast same
    rw [recast.stamps, same, ← stamps_of_row recast.held, Function.update_eq_self]
  cases booked with
  | aside quiet => exact enlisted.quiet quiet.stamps quiet.changed quiet.journal transaction scope
  | observed recast first records changed journal =>
      exact enlisted.quiet (unstamped recast rfl) changed
        ⟨[], journal, fun _ member => nomatch member⟩ transaction scope
  | wrote recast ready writes records changed journal =>
      exact enlisted.quiet (unstamped recast rfl) changed
        ⟨[], journal, fun _ member => nomatch member⟩ transaction scope
  | journaled recast current found records changed journal =>
      rename_i id row record
      have stamped := stamps_of_row recast.held
      have now := recast.stamps
      have pushed : after.journal = [.account (accountUndo id row record.effect)] ++ self.journal :=
        journal
      refine ⟨pushed ▸ enlisted.inside.push, scope ▸ enlisted.chained, ?_⟩
      rw [pushed, transaction, changed]
      refine enlisted.enrolled.push enlisted.inside ?_ (fun other => ?_)
        fun held rest _ other journaled => ?_
      · rw [now]
        change Function.update (Function.update _ id _) id _ = _
        rw [Function.update_idem]
        exact (congrArg (Function.update self.stamps id) stamped.symm).trans
          (Function.update_eq_self id _)
      · rw [now]
        by_cases same : other = id
        · rw [same, Function.update_self, stamped]
          rfl
        · rw [Function.update_of_ne same]
      · by_cases same : other = id
        · exact .inr ⟨_, List.mem_singleton_self _, same.symm⟩
        · rw [now, Function.update_of_ne same] at journaled
          exact .inl journaled
  | dirtied recast current covered records changed journal =>
      rename_i id row
      have stamped := stamps_of_row recast.held
      refine ⟨journal ▸ enlisted.inside, scope ▸ enlisted.chained, ?_⟩
      rw [journal, transaction, changed, recast.stamps]
      change Enrolled _ (Function.update self.stamps id (self.lifetime.transaction,
        row.journaledScope)) _ _ _
      rw [covered]
      exact enlisted.enrolled.enlist enlisted.chained ((congrArg Prod.snd stamped).trans covered)

theorem changed (enlisted : Enlisted self scopes) (steps : Changed env licence self after) :
    Enlisted after scopes := by
  induction steps with
  | refl => exact enlisted
  | tail _ step ih => exact ih.booked step.booked step.control.lifetime

/-! ## Scopes -/

theorem opened (enlisted : Enlisted self scopes) (aged : Aged self) :
    Enlisted (opened self) (mark self :: scopes) := by
  refine ⟨⟨Nat.le_refl _, ?_⟩, ⟨rfl, enlisted.chained⟩, enlisted.enrolled.opened rfl rfl fun id => ?_⟩
  · rw [show below (WorldState.opened self).journal (mark self).journalLen =
      self.journal from below_self _]
    exact enlisted.inside
  · intro same
    cases found : self.world.accounts.row id with
    | none =>
        have stamp : self.stamps id = (0, 0) := by
          rw [WorldState.stamps, found]
          rfl
        rw [stamp] at same
        cases same
    | some row =>
        rw [stamps_of_row found] at same
        have past := (aged.account id row found).journaled
        have fresh : row.journaledScope = self.clock + 1 := same
        rw [fresh] at past
        exact Nat.not_succ_le_self _ past

theorem rescoped {root : Generation} {depth : Nat} (enlisted : Enlisted self []) :
    Enlisted (rescoped root depth self) [] :=
  ⟨trivial, trivial, enlisted.enrolled⟩

theorem committed (enlisted : Enlisted self (held :: scopes)) :
    Enlisted (WorldState.committed held.parentScope self) scopes :=
  ⟨enlisted.inside.commit, enlisted.chained.2, enlisted.enrolled.committed enlisted.inside⟩

/-- Unwinding gives the stamps back that the entries hold. -/
theorem popEntries_stamps (env : Env) {count : Nat} (ran : popEntries count self = .ok () after) :
    after.stamps = rewind (self.journal.take count) self.stamps ∧
      after.changedAccounts = self.changedAccounts := by
  induction count generalizing self with
  | zero =>
      cases ran
      exact ⟨rfl, rfl⟩
  | succ count ih =>
      obtain ⟨entry, older, middle, journal, undone, rest⟩ := popEntries_succ ran
      obtain ⟨stamps, changed⟩ := ih rest
      have undone := undoEntry_ran undone
      have left : middle.journal = older := undone.journal
      have one : middle.stamps = Entry.giveBack self.stamps entry ∧
          middle.changedAccounts = self.changedAccounts := by
        cases @Undone.booked env _ _ _ undone with
        | aside others quiet =>
            refine ⟨quiet.stamps.trans ?_, quiet.changed⟩
            cases entry with
            | account undo => exact absurd rfl (others undo)
            | _ => rfl
        | gaveBack same recast records changed =>
            subst same
            exact ⟨recast.stamps, changed⟩
      rw [stamps, left, journal, one.1, changed, one.2]
      exact ⟨rfl, rfl⟩

theorem reverted (env : Env) (enlisted : Enlisted self (held :: scopes)) {mid : WorldState}
    (unwound : revertJournalTo held.journalLen self.flagged = .ok () mid) :
    Enlisted (rewoundTo held mid) scopes := by
  have left : mid.journal = below self.journal held.journalLen :=
    (revertJournalTo_journal unwound).trans rfl
  have pops : popEntries (self.flagged.journal.length - held.journalLen) self.flagged = .ok () mid :=
    unwound
  obtain ⟨stamps, changed⟩ := popEntries_stamps env pops
  have control := (revertJournalTo_control unwound).lifetime
  refine ⟨?_, enlisted.chained.2, ?_⟩
  · change Inside mid.journal scopes
    rw [left]
    exact enlisted.inside.2
  · change Enrolled mid.lifetime.transaction mid.stamps mid.journal scopes
      (mid.changedAccounts.take held.changedAccountsLen)
    rw [left, stamps, changed, control]
    exact enlisted.enrolled.reverted

theorem called (enlisted : Enlisted self scopes) (aged : Aged self)
    (called : Called env licence self after) : Enlisted after scopes := by
  cases called with
  | changed steps => exact enlisted.changed steps
  | settled final running steps closes =>
      obtain ⟨-, rfl⟩ := commitCheckpoint_ran closes
      exact ((enlisted.opened aged).changed steps.changed).committed
  | abandoned final running steps closes =>
      obtain ⟨-, mid, unwound, rfl⟩ := revertToCheckpoint_ran closes
      exact ((enlisted.opened aged).changed steps.changed).reverted env unwound

theorem begun (aged : Aged self) (observe : Bool) : Enlisted (begun observe self) [] := by
  refine ⟨trivial, trivial, fun id stamped => ?_⟩
  cases found : self.world.accounts.row id with
  | none =>
      have stamp : (WorldState.begun observe self).stamps id = (0, 0) := by
        rw [WorldState.stamps, show (WorldState.begun observe self).world.accounts.row id =
          none from found]
        rfl
      rw [stamp] at stamped
      cases stamped
  | some row =>
      have same : row.dirtyTransaction = self.clock + 1 := by
        rw [@stamps_of_row (WorldState.begun observe self) id row found] at stamped
        exact stamped
      have past := (aged.account id row found).dirty
      rw [same] at past
      exact absurd past (Nat.not_succ_le_self _)

end Enlisted

end WorldState

end EvmZig.State
