import EvmZig.Execution.MemoryOps
import Mathlib.Order.Bounds.Basic

/-!
# Runs over a frame memory

A run is any sequence of expansions, writes, copies and reads, with whatever
else the frame does in between.  The memory is a byte map that starts blank:
its length is the least that covers the touched ranges, and the expansions of
the run together cost what its final length costs.
-/

set_option autoImplicit false

namespace EvmZig.Execution

open Zig
open Lib (ByteMap ByteStore)

namespace MemoryOps

/-- The writing methods of a memory. -/
inductive Write where
  | word (offset : Nat) (value : U256)
  | byte (offset : Nat) (value : U256)
  | bytes (offset : Nat) (value : List UInt8)
  | padded (offset size : Nat) (value : List UInt8)
  | copy (dest source size : Nat)

def Write.run : Write → Memory → Option Memory
  | .word offset value, memory => memory.write offset value
  | .byte offset value, memory => memory.write8 offset value
  | .bytes offset value, memory => memory.writeBytes offset value
  | .padded offset size value, memory => memory.writePaddedBytes offset size value
  | .copy dest source size, memory => memory.copy dest source size

/-- What a write stores when the memory holds `map`. -/
def Write.store (map : ByteMap) : Write → ByteStore
  | .word offset value => ⟨offset, toBytes32 value⟩
  | .byte offset value => ⟨offset, [UInt8.ofNat value.val]⟩
  | .bytes offset value => ⟨offset, value⟩
  | .padded offset size value => ⟨offset, Memory.padded size value⟩
  | .copy dest source size => ⟨dest, map.load source size⟩

/-- An offset and a number of bytes. -/
abbrev ByteRange : Type := Nat × Nat

def Write.ranges : Write → List ByteRange
  | .word offset _ => [(offset, wordSize)]
  | .byte offset _ => [(offset, 1)]
  | .bytes offset value => [(offset, value.length)]
  | .padded offset size _ => [(offset, size)]
  | .copy dest source size => [(dest, size), (source, size)]

/-- `other` stands for whatever else runs on the frame. -/
inductive Access where
  | expand (offset byteSize : Nat)
  | write (write : Write)
  | read (offset : Nat)
  | readBytes (offset size : Nat)
  | other (frame : CallFrame)

inductive Answer where
  | done
  | refused
  | word (value : U256)
  | bytes (bytes : List UInt8)

def perform (allocator : Allocator) : Access → MemoryStep Answer
  | .expand offset byteSize => do
      let covered ← expandMemory allocator offset byteSize
      return if covered then .done else .refused
  | .write write => do
      assignMemory write.run
      return .done
  | .read offset => .word <$> readMemory fun memory => memory.read offset
  | .readBytes offset size => .bytes <$> readMemory fun memory => memory.readBytes offset size
  | .other frame => do
      Action.modify fun self => { self with frame }
      return .done

/-- One step of a run: what was asked, what came back, and the gas it took. -/
structure Event where
  access : Access
  answer : Answer
  spent : Int

inductive Ran (allocator : Allocator) (start : MemorySite) : List Event → MemorySite → Prop
  | start : Ran allocator start [] start
  | step {events : List Event} {site last : MemorySite} {access : Access} {answer : Answer} :
      Ran allocator start events site → site.frame.isRunning →
      perform allocator access site = .ok answer last →
      Ran allocator start
        (events ++ [⟨access, answer, site.frame.gas.gasLeft - last.frame.gas.gasLeft⟩]) last

/-- The ranges an event touched; a refused expansion touches nothing. -/
def Event.touched (event : Event) : List ByteRange :=
  match event.access, event.answer with
  | .expand offset byteSize, .done => [(offset, byteSize)]
  | .write write, _ => write.ranges
  | .read offset, _ => [(offset, wordSize)]
  | .readBytes offset size, _ => [(offset, size)]
  | _, _ => []

def touched (events : List Event) : List ByteRange := events.flatMap Event.touched

/-- The stores of a run, oldest first. -/
def history (events : List Event) : List ByteStore :=
  events.foldl (fun stores event =>
    match event.access with
    | .write write => stores ++ [write.store (ByteMap.recorded stores)]
    | _ => stores) []

/-- What an event charged for expansion. -/
def Event.charged (event : Event) : Int :=
  match event.access, event.answer with
  | .expand _ _, .done => event.spent
  | _, _ => 0

def charged (events : List Event) : Int := (events.map Event.charged).sum

/-- The memory covers the non-empty ranges in whole words. -/
def Covers (ranges : List ByteRange) (size : Nat) : Prop :=
  size % wordSize = 0 ∧ ∀ range ∈ ranges, range.2 ≠ 0 → range.1 + range.2 ≤ size

/-! ## One step -/

section Step

variable {allocator : Allocator} {site last : MemorySite} {memory after : Memory}
variable {offset byteSize : Nat}

instance (memory : Memory) (offset byteSize : Nat) : Decidable (Covered memory offset byteSize) :=
  inferInstanceAs (Decidable (_ ∨ _))

theorem demand_sound (sound : memory.Sound) :
    demand memory offset byteSize =
      if Covered memory offset byteSize then .nothing
      else if Memory.Representable offset byteSize then
        .expansion
          ⟨Memory.wordsCost (Memory.coveringWords (offset + byteSize)) -
            Memory.wordsCost (memory.len / wordSize),
            Memory.coveringWords (offset + byteSize) * wordSize⟩
      else .tooFar := by
  by_cases covered : Covered memory offset byteSize
  · rw [if_pos covered, demand_nothing.mpr covered]
  · rw [Covered, not_or] at covered
    obtain ⟨nonempty, outside⟩ := covered
    have grows : memory.len < offset + byteSize := Nat.lt_of_not_le outside
    have uncovered : ¬Covered memory offset byteSize := not_or.mpr ⟨nonempty, outside⟩
    rw [demand, if_neg nonempty, if_neg uncovered]
    by_cases bounded : offset + byteSize ≤ usizeMax
    · rw [addUsize_eq bounded]
      dsimp only
      rw [if_neg outside, Memory.planExpansion_eq sound nonempty grows]
      by_cases representable : Memory.Representable offset byteSize
      · rw [if_pos representable, if_pos representable]
      · rw [if_neg representable, if_neg representable]
    · have unrepresentable : ¬Memory.Representable offset byteSize :=
        fun both => bounded (Nat.le_trans (Nat.le_add_right ..) both.1)
      rw [addUsize, if_neg bounded, if_neg unrepresentable]

/-- The cost of the words of a memory. -/
def paidFor (memory : Memory) : Int := Memory.wordsCost (memory.len / wordSize)

/-- What an expansion that returns `true` did. -/
structure Expanded (offset byteSize : Nat) (site last : MemorySite) : Prop where
  covered : Covered last.memory offset byteSize
  sound : last.memory.Sound
  bytesAt : last.memory.bytesAt = site.memory.bytesAt
  spent : site.frame.gas.gasLeft - last.frame.gas.gasLeft = paidFor last.memory - paidFor site.memory
  grows : site.memory.len ≤ last.memory.len
  least : last.memory.len ≠ site.memory.len →
    byteSize ≠ 0 ∧ last.memory.len = Memory.coveringWords (offset + byteSize) * wordSize

theorem covering_words (stop : Nat) :
    stop ≤ Memory.coveringWords stop * wordSize ∧
      Memory.coveringWords stop * wordSize % wordSize = 0 ∧
      Memory.coveringWords stop * wordSize / wordSize = Memory.coveringWords stop := by
  refine ⟨?_, Nat.mul_mod_left .., Nat.mul_div_cancel _ (by decide)⟩
  rw [Memory.coveringWords, wordSize]
  omega

theorem covering_least {stop size : Nat} (whole : size % wordSize = 0) (reaches : stop ≤ size) :
    Memory.coveringWords stop * wordSize ≤ size := by
  rw [Memory.coveringWords]
  rw [wordSize] at whole ⊢
  omega

/-- What `expandMemory` does to a range it has to grow for. -/
theorem expandMemory_grows (sound : site.memory.Sound)
    (uncovered : ¬Covered site.memory offset byteSize)
    (representable : Memory.Representable offset byteSize) :
    expandMemory allocator offset byteSize site =
      payExpansion allocator
        ⟨Memory.wordsCost (Memory.coveringWords (offset + byteSize)) - paidFor site.memory,
          Memory.coveringWords (offset + byteSize) * wordSize⟩ site := by
  rw [expandMemory_demand, demand_sound sound, if_neg uncovered, if_pos representable]
  rfl

theorem expandMemory_unrepresentable (sound : site.memory.Sound) (running : site.frame.isRunning)
    (uncovered : ¬Covered site.memory offset byteSize)
    (unrepresentable : ¬Memory.Representable offset byteSize) :
    expandMemory allocator offset byteSize site = .ok false (MemorySite.stopped site) := by
  rw [expandMemory_demand, demand_sound sound, if_neg uncovered, if_neg unrepresentable]
  dsimp only
  rw [Action.bind_run, halt_running running]
  rfl

theorem expandMemory_true (sound : site.memory.Sound) (running : site.frame.isRunning)
    (ran : expandMemory allocator offset byteSize site = .ok true last) :
    Expanded offset byteSize site last := by
  by_cases covered : Covered site.memory offset byteSize
  · rw [expandMemory_covered covered] at ran
    cases ran
    exact ⟨covered, sound, rfl, by omega, Nat.le_refl _, fun grown => absurd rfl grown⟩
  by_cases representable : Memory.Representable offset byteSize
  · rw [expandMemory_grows sound covered representable] at ran
    obtain ⟨nonempty, outside⟩ := not_or.mp covered
    obtain ⟨reaches, whole, words⟩ := covering_words (offset + byteSize)
    generalize expanding : (⟨_, _⟩ : Expansion) = expansion at ran
    have grows : site.memory.len < expansion.nextSize := by
      rw [← expanding]
      exact Nat.lt_of_lt_of_le (Nat.lt_of_not_le outside) reaches
    by_cases short : site.frame.gas.gasLeft < expansion.cost
    · rw [payExpansion_short running short] at ran
      cases ran
    by_cases fits : FitsI64 (site.frame.gas.gasLeft - expansion.cost)
    · rcases Memory.applyExpansion_run allocator grows with
        ⟨memory, applied, grown⟩ | ⟨memory, applied, -⟩
      · rw [payExpansion_granted short fits applied] at ran
        cases ran
        subst expanding
        have size : memory.len = Memory.coveringWords (offset + byteSize) * wordSize := grown.len
        refine ⟨.inr ?_, ⟨?_, ?_⟩, grown.bytesAt, ?_, ?_, fun _ => ⟨nonempty, size⟩⟩
        · exact size ▸ reaches
        · exact size ▸ whole
        · change (Memory.wordsCost (memory.len / wordSize) : Int) ≤ i64Max
          rw [size, words]
          exact representable.2
        · have cost : paidFor memory =
              Memory.wordsCost (Memory.coveringWords (offset + byteSize)) := by
            rw [paidFor, size, words]
          change site.frame.gas.gasLeft - (site.frame.gas.gasLeft - (_ - _)) = paidFor memory - _
          rw [cost]
          omega
        · exact Nat.le_of_lt (grown.len.symm ▸ grows)
      · rw [payExpansion_refused short fits applied] at ran
        cases ran
    · rw [payExpansion_wide short fits] at ran
      cases ran
  · rw [expandMemory_unrepresentable sound running covered representable] at ran
    cases ran

/-- A refused expansion halts the frame and leaves the memory alone. -/
theorem expandMemory_false (sound : site.memory.Sound) (running : site.frame.isRunning)
    (ran : expandMemory allocator offset byteSize site = .ok false last) :
    last = MemorySite.stopped site := by
  by_cases covered : Covered site.memory offset byteSize
  · rw [expandMemory_covered covered] at ran
    cases ran
  by_cases representable : Memory.Representable offset byteSize
  · rw [expandMemory_grows sound covered representable] at ran
    generalize (⟨_, _⟩ : Expansion) = expansion at ran
    by_cases short : site.frame.gas.gasLeft < expansion.cost
    · rw [payExpansion_short running short] at ran
      cases ran
      rfl
    unfold payExpansion at ran
    rw [Action.bind_eq_ok] at ran
    obtain ⟨paid, charged, pays, ran⟩ := ran
    cases paid with
    | true =>
        rw [if_pos rfl, Action.bind_eq_ok] at ran
        obtain ⟨_, _, _, ends⟩ := ran
        cases ends
    | false =>
        by_cases fits : FitsI64 (site.frame.gas.gasLeft - expansion.cost)
        · rw [onFrame, CallFrame.trackGas_paid (Int.not_lt.mp short) fits] at pays
          cases pays
        · have traps : CallFrame.trackGas expansion.cost site.frame = .illegal := by
            simp [CallFrame.trackGas, Action.bind_run, short, subI64, fits]
          rw [onFrame, traps] at pays
          cases pays
  · rw [expandMemory_unrepresentable sound running covered representable] at ran
    cases ran
    rfl

/-- A write stores its bytes inside the memory. -/
theorem Write.stored {write : Write} (ran : write.run memory = some after) :
    Memory.Stored (write.store memory.bytesAt) memory after ∧
      ∀ range ∈ write.ranges, range.2 ≠ 0 → range.1 + range.2 ≤ memory.len := by
  have single {stored : ByteStore} (kept : Memory.Stored stored memory after) :
      ∀ range ∈ [(stored.offset, stored.bytes.length)], range.2 ≠ 0 →
        range.1 + range.2 ≤ memory.len := by
    intro range member nonempty
    rw [List.mem_singleton] at member
    subst member
    exact kept.inside fun empty => nonempty (List.length_eq_zero_iff.mpr empty)
  cases write with
  | word offset value =>
      have kept := Memory.write_stored ran
      have inside := single kept
      rw [Memory.toBytes32_length] at inside
      exact ⟨kept, inside⟩
  | byte offset value =>
      have kept := Memory.write8_stored ran
      exact ⟨kept, single kept⟩
  | bytes offset value =>
      have kept := Memory.writeBytes_stored ran
      exact ⟨kept, single kept⟩
  | padded offset size value =>
      have kept := Memory.writePaddedBytes_stored ran
      have inside := single kept
      rw [Memory.padded_length] at inside
      exact ⟨kept, inside⟩
  | copy dest source size =>
      obtain ⟨kept, sourceInside⟩ := Memory.copy_stored ran
      have inside := single kept
      rw [ByteMap.load_length] at inside
      refine ⟨kept, List.forall_mem_cons.mpr ⟨inside _ List.mem_cons_self, ?_⟩⟩
      intro range member _
      rw [List.mem_singleton] at member
      subst member
      exact sourceInside

end Step

/-! ## Runs -/

section Runs

variable {allocator : Allocator} {first site last : MemorySite} {events : List Event}
variable {event : Event}

theorem touched_append (events : List Event) (event : Event) :
    touched (events ++ [event]) = touched events ++ event.touched := by
  rw [touched, List.flatMap_append, List.flatMap_singleton]
  rfl

theorem charged_append (events : List Event) (event : Event) :
    charged (events ++ [event]) = charged events + event.charged := by
  rw [charged, List.map_append, List.sum_append, List.map_singleton, List.sum_singleton]
  rfl

theorem history_append (events : List Event) (event : Event) :
    history (events ++ [event]) =
      match event.access with
      | .write write => history events ++ [write.store (ByteMap.recorded (history events))]
      | _ => history events := by
  rw [history, List.foldl_append]
  rfl

/-- What a run leaves the memory in. -/
structure Meets (events : List Event) (memory : Memory) : Prop where
  sound : memory.Sound
  bytesAt : memory.bytesAt = ByteMap.recorded (history events)
  least : IsLeast { size | Covers (touched events) size } memory.len
  paid : charged events = paidFor memory

/-- A step that neither grows the memory nor touches anything past it. -/
theorem Meets.inside {memory after : Memory} (meets : Meets events memory)
    (len : after.len = memory.len)
    (bytesAt : after.bytesAt = ByteMap.recorded (history (events ++ [event])))
    (ranges : ∀ range ∈ event.touched, range.2 ≠ 0 → range.1 + range.2 ≤ memory.len)
    (free : event.charged = 0) : Meets (events ++ [event]) after := by
  refine ⟨⟨?_, ?_⟩, bytesAt, ⟨⟨?_, ?_⟩, ?_⟩, ?_⟩
  · rw [len]
    exact meets.sound.whole
  · rw [len]
    exact meets.sound.affordable
  · rw [len]
    exact meets.sound.whole
  · intro range member nonempty
    rw [touched_append, List.mem_append] at member
    rw [len]
    rcases member with earlier | now
    · exact meets.least.1.2 range earlier nonempty
    · exact ranges range now nonempty
  · intro size covers
    rw [len]
    apply meets.least.2
    refine ⟨covers.1, fun range member => covers.2 range ?_⟩
    rw [touched_append]
    exact List.mem_append_left _ member
  · rw [charged_append, free, meets.paid, paidFor, paidFor, len, Int.add_zero]

theorem Meets.expanded {offset byteSize : Nat} {spent : Int}
    (meets : Meets events site.memory) (expanded : Expanded offset byteSize site last)
    (exact : spent = site.frame.gas.gasLeft - last.frame.gas.gasLeft) :
    Meets (events ++ [⟨.expand offset byteSize, .done, spent⟩]) last.memory := by
  have touches : touched (events ++ [⟨.expand offset byteSize, .done, spent⟩]) =
      touched events ++ [(offset, byteSize)] := touched_append ..
  have costs : charged (events ++ [⟨.expand offset byteSize, .done, spent⟩]) =
      charged events + spent := charged_append ..
  refine ⟨expanded.sound, ?_, ⟨⟨expanded.sound.whole, ?_⟩, ?_⟩, ?_⟩
  · rw [expanded.bytesAt, meets.bytesAt, history_append]
  · intro range member nonempty
    rw [touches, List.mem_append, List.mem_singleton] at member
    rcases member with earlier | rfl
    · exact Nat.le_trans (meets.least.1.2 range earlier nonempty) expanded.grows
    · exact expanded.covered.resolve_left nonempty
  · intro size covers
    rw [Set.mem_ofPred_eq, touches] at covers
    by_cases grown : last.memory.len = site.memory.len
    · rw [grown]
      exact meets.least.2 ⟨covers.1, fun range member =>
        covers.2 range (List.mem_append_left _ member)⟩
    · obtain ⟨nonempty, len⟩ := expanded.least grown
      rw [len]
      exact covering_least covers.1
        (covers.2 (offset, byteSize) (List.mem_append_right _ (List.mem_singleton_self _)) nonempty)
  · rw [costs, meets.paid, exact, expanded.spent]
    omega

theorem Meets.initial {memory : Memory} (fresh : memory.len = 0) : Meets [] memory := by
  refine ⟨⟨?_, ?_⟩, ?_, ⟨⟨?_, nofun⟩, ?_⟩, ?_⟩
  · rw [fresh]
    rfl
  · rw [fresh]
    decide
  · rw [Memory.bytesAt, Memory.items, fresh, List.take_zero]
    rfl
  · rw [fresh]
    rfl
  · intro size _
    rw [fresh]
    exact Nat.zero_le size
  · rw [paidFor, fresh]
    rfl

theorem readMemory_ok {α : Type} {read : Memory → Option α} {value : α} :
    (readMemory read : MemoryStep α) site = .ok value last ↔
      read site.memory = some value ∧ site = last := by
  unfold readMemory
  cases read site.memory <;> simp

/-- What a read returns when the memory holds `map`. -/
def Answered (map : ByteMap) (event : Event) : Prop :=
  match event.access with
  | .read offset => event.answer = .word (fromBytes32 (map.load offset wordSize))
  | .readBytes offset size => event.answer = .bytes (map.load offset size)
  | _ => True

theorem Meets.step {access : Access} {answer : Answer} (meets : Meets events site.memory)
    (running : site.frame.isRunning) (ran : perform allocator access site = .ok answer last) :
    Meets
        (events ++ [⟨access, answer, site.frame.gas.gasLeft - last.frame.gas.gasLeft⟩])
        last.memory ∧
      Answered (ByteMap.recorded (history events))
        ⟨access, answer, site.frame.gas.gasLeft - last.frame.gas.gasLeft⟩ := by
  generalize exact : site.frame.gas.gasLeft - last.frame.gas.gasLeft = spent
  cases access with
  | expand offset byteSize =>
      rw [perform, Action.bind_eq_ok] at ran
      obtain ⟨covered, _, expands, ends⟩ := ran
      cases covered with
      | true =>
          cases ends
          exact ⟨meets.expanded (expandMemory_true meets.sound running expands) exact.symm, trivial⟩
      | false =>
          cases ends
          have same := expandMemory_false meets.sound running expands
          have kept : last.memory = site.memory := by rw [same]; rfl
          rw [kept]
          refine ⟨meets.inside rfl ?_ (fun _ member => absurd member List.not_mem_nil) rfl, trivial⟩
          rw [meets.bytesAt, history_append]
  | write write =>
      rw [perform, Action.bind_eq_ok] at ran
      obtain ⟨_, middle, assigns, ends⟩ := ran
      cases ends
      unfold assignMemory at assigns
      split at assigns
      · rename_i memory wrote
        cases assigns
        obtain ⟨stored, inside⟩ := Write.stored wrote
        refine ⟨meets.inside stored.len ?_ inside rfl, trivial⟩
        rw [stored.bytesAt, history_append, meets.bytesAt]
        exact (ByteMap.recorded_append ..).symm
      · cases assigns
  | read offset =>
      rw [perform, Action.map_run] at ran
      split at ran
      · rename_i value middle reads
        cases ran
        obtain ⟨held, rfl⟩ := readMemory_ok.mp reads
        obtain ⟨bytes, taken, rfl⟩ := Option.map_eq_some_iff.mp held
        obtain ⟨inside, rfl⟩ := Memory.readBytes_eq_some.mp taken
        refine ⟨meets.inside rfl ?_ ?_ rfl, ?_⟩
        · rw [meets.bytesAt, history_append]
        · intro range member _
          cases List.mem_singleton.mp member
          exact inside
        · rw [meets.bytesAt]
          exact rfl
      · cases ran
      · cases ran
  | readBytes offset size =>
      rw [perform, Action.map_run] at ran
      split at ran
      · rename_i value middle reads
        cases ran
        obtain ⟨held, rfl⟩ := readMemory_ok.mp reads
        obtain ⟨inside, rfl⟩ := Memory.readBytes_eq_some.mp held
        refine ⟨meets.inside rfl ?_ ?_ rfl, ?_⟩
        · rw [meets.bytesAt, history_append]
        · intro range member _
          cases List.mem_singleton.mp member
          exact inside
        · rw [meets.bytesAt]
          exact rfl
      · cases ran
      · cases ran
  | other frame =>
      rw [perform, Action.bind_run, Action.modify_run] at ran
      cases ran
      refine ⟨meets.inside rfl ?_ (fun _ member => absurd member List.not_mem_nil) rfl, trivial⟩
      rw [meets.bytesAt, history_append]

/-- On a fresh memory, every run meets its history. -/
theorem Ran.meets (fresh : first.memory.len = 0) (ran : Ran allocator first events last) :
    Meets events last.memory := by
  induction ran with
  | start => exact Meets.initial fresh
  | step before running performs ih => exact (ih.step running performs).1

/-- Every answer of a run is what its stores so far left. -/
theorem Ran.answered (fresh : first.memory.len = 0) (ran : Ran allocator first events last)
    {before later : List Event} (split : events = before ++ event :: later) :
    Answered (ByteMap.recorded (history before)) event := by
  induction ran generalizing later with
  | start => exact absurd split.symm (by simp)
  | step prior running performs ih =>
      rcases List.eq_nil_or_concat later with rfl | ⟨rest, newest, rfl⟩
      · obtain ⟨rfl, same⟩ := List.append_inj' split rfl
        cases same
        exact ((prior.meets fresh).step running performs).2
      · rw [List.concat_eq_append, ← List.cons_append, ← List.append_assoc] at split
        exact ih (List.append_inj' split rfl).1

def zeroed : MemorySite :=
  ⟨⟨.running, ⟨94, 0, 0, 0, 0⟩, []⟩, ⟨List.replicate 64 0, 64, 0, by decide, by decide⟩⟩

def filled : MemorySite :=
  ⟨⟨.running, ⟨94, 0, 0, 0, 0⟩, []⟩,
    ⟨List.replicate 39 0 ++ 5 :: List.replicate 24 0, 64, 0, by decide, by decide⟩⟩

end Runs

end MemoryOps

end EvmZig.Execution
