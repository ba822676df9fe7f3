import EvmZig.State.Values

/-!
# What every call does to accounts

Calls on code, storage, warmth, transient storage and logs change no account
but the one a nonce or code is set on, and that only in this field.
-/

set_option autoImplicit false

namespace EvmZig.State

open Lib Zig

namespace WorldState

variable {env : Env} {touched : Address → Prop} {self after : WorldState} {α : Type}

/-! ## Code -/

theorem admitCode_accounts (hash : CodeHash) (bytes : Bytes) :
    Safe (accounts env touched) (admitCode hash bytes) := by
  intro self _ _
  unfold admitCode
  split
  · trivial
  · exact ⟨trivial, .of_accounts rfl ⟨⟨rfl, rfl⟩, rfl⟩, trivial⟩

theorem enterIntroduced_accounts (hash : CodeHash) (bytes : Bytes) :
    Safe (accounts env touched) (enterIntroduced env hash bytes) := by
  unfold enterIntroduced
  refine Safe.bind Safe.get fun state => ?_
  split
  · exact Safe.fail _
  · exact Safe.bind reserve_accounts fun _ => Safe.bind reserve_accounts fun _ =>
      admitCode_accounts hash bytes

/-- The facts with another code hash; an absent account is created. -/
def codeFacts (held : AccountFacts) (codeHash : CodeHash) : AccountFacts :=
  { held with current := some { held.current.getD {} with codeHash } }

theorem assignCode_facts (id : AccountId) (address : Address) (cached : CodeStore.CacheResult)
    (held : AccountFacts) :
    Keeps (accounts env (· = address)) (FactsOf env id address held) (assignCode id cached)
      fun _ => FactsOf env id address (codeFacts held cached.view.codeHash) := by
  refine Keeps.bind accountRow_facts fun row => Keeps.assuming fun same => ?_
  subst same
  refine Keeps.bind
    (assign_facts (codeFacts row.facts cached.view.codeHash) (fun _ _ same => ?_) rfl rfl) fun _ => reading_facts (updateAccountEffect_accounts id _)
  simp only [AccountRow.facts, AccountFacts.mk.injEq] at same ⊢
  simp [codeFacts, same]

theorem introduceCode_facts (id : AccountId) (address : Address) (cached : CodeStore.CacheResult)
    (introduced : Nat) (held : AccountFacts) :
    Keeps (accounts env (· = address)) (FactsOf env id address held)
      (introduceCode env id cached introduced)
      fun _ => FactsOf env id address (codeFacts held cached.view.codeHash) := by
  have journaled : Safe (reading env) (Action.modify (fun self =>
      { self with
        blockIntroducedCodes := self.blockIntroducedCodes ++ [introduced]
        journal := .introducedCode :: self.journal }) : Method Unit) :=
    modify_accounts fun _ => .of_accounts rfl ⟨⟨rfl, rfl⟩, rfl⟩
  exact Keeps.bind (reading_facts reserve_accounts) fun _ =>
    Keeps.bind (reading_facts reserve_accounts) fun _ =>
    Keeps.bind (reading_facts (prepareAccountMutation_accounts id)) fun _ =>
    Keeps.bind (reading_facts journaled) fun _ => assignCode_facts id address cached held

/-- Setting code changes no other field. -/
theorem setCode_facts (address : Address) (bytes : Bytes) (held : AccountFacts) :
    Keeps (accounts env (· = address)) (fun self => self.factsAt env address = held)
      (setCode env address bytes)
      fun _ after => ∃ codeHash, after.factsAt env address = codeFacts held codeHash := by
  unfold setCode
  refine Keeps.bind (requireAccount_facts address held) fun id =>
    Keeps.bind (reading_facts (observeAccount_accounts id _)) fun _ =>
    Keeps.bind (reading_facts (Safe.read _)) fun introducedLen =>
    Keeps.bind (resolveCode_keeps bytes) fun resolved => ?_
  split
  · rename_i cached
    exact Keeps.bind (reading_facts (prepareAccountMutation_accounts id)) fun _ =>
      (assignCode_facts id address cached held).weaken
        fun _ _ known => ⟨_, known.2⟩
  · rename_i hash
    refine Keeps.bind (reading_facts (enterIntroduced_accounts hash bytes)) fun cached => ?_
    split
    · exact Keeps.illegal
    · rename_i introduced _
      refine Keeps.errdefer (fun _ _ => ⟨trivial, .of_accounts rfl ⟨⟨rfl, rfl⟩, rfl⟩⟩) ?_
      exact (introduceCode_facts id address cached introduced held).weaken
        fun _ _ known => ⟨_, known.2⟩

theorem setNonce_facts (address : Address) (nonce : U64) (held : AccountFacts) :
    Keeps (accounts env (· = address)) (fun self => self.factsAt env address = held)
      (setNonce env address nonce)
      fun _ after => after.factsAt env address =
        { held with current := some { held.current.getD {} with nonce } } := by
  unfold setNonce
  refine Keeps.bind (requireAccount_facts address held) fun id =>
    Keeps.bind accountRow_facts fun row => Keeps.assuming fun same => ?_
  subst same
  dsimp only
  split
  · rename_i unchanged
    refine Keeps.returns ?_
    rintro _ after ⟨-, -, found⟩
    obtain ⟨account, accountEq⟩ := Option.isSome_iff_exists.mp unchanged.1
    simp only [AccountRow.facts, accountEq, Option.getD_some] at unchanged found ⊢
    rw [found, ← unchanged.2]
  · exact (writeAccount_facts id address _ _).weaken fun _ _ known => known.2

/-! ## Storage -/

theorem updateStorageEffect_accounts (id : StorageId) (update : StorageEffect → StorageEffect) :
    Safe (accounts env touched) (updateStorageEffect id update) :=
  Safe.bind (storageRow_looks id).safe fun _ => Safe.bind (storageObservation_looks id).safe fun _ =>
    modify_accounts fun _ => .of_accounts rfl ⟨⟨rfl, rfl⟩, rfl⟩

theorem setTransientStorage_accounts (address : Address) (slot value : U256) :
    Safe (accounts env touched) (setTransientStorage env address slot value) := by
  unfold setTransientStorage
  refine Safe.bind assertSession_looks.safe fun _ => Safe.bind Safe.get fun state => ?_
  dsimp only
  split
  · exact Safe.pure _
  · exact Safe.bind (Safe.when reserve_accounts) fun _ => Safe.bind reserve_accounts fun _ =>
      Safe.bind reserve_accounts fun _ => modify_accounts fun _ => .of_accounts rfl ⟨⟨rfl, rfl⟩, rfl⟩

theorem clearLogs_accounts : Safe (accounts env touched) (clearLogs) := by
  refine modify_accounts fun self => ?_
  split
  · exact .of_accounts rfl ⟨⟨rfl, rfl⟩, rfl⟩
  · exact .of_accounts rfl ⟨⟨rfl, rfl⟩, rfl⟩

end WorldState

end EvmZig.State
