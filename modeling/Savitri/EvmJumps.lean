import Savitri.EvmBounds

/-!
Where the program counter can be. An instruction goes on to the next one, past the data of a
push, or to a byte of the code that marks a jump destination; `validate_jumpdest` looks at
this byte only, and it can as well be the data of a push.
-/
namespace Savitri.Evm
open Contracts Loops

def Opcode.width : Opcode → Nat
  | .pushn n => n
  | _ => 0

/-- The offsets, the end of the code included, reached from its start by skipping the data of
pushes. -/
inductive Boundary (code : List UInt8) : Nat → Prop where
  | start : Boundary code 0
  | next {pc : Nat} {byte : UInt8} : Boundary code pc → code[pc]? = some byte →
      Boundary code (pc + 1 + (decode byte).width)

section
variable {overflowChecks : Bool} {keccak256 : List UInt8 → Vector UInt8 32} {db : ContractsCf}
  {env : Environment} {vm : Vm} {goal : Vm → Prop}

/-- What holds of the machine wherever the computation does not stop it. -/
abbrev Lands (goal : Vm → Prop) : Except Stop Vm → Prop := Meets (fun _ => True) goal

theorem lands_bind {Value : Type} {first : Except Stop Value} {next : Value → Except Stop Vm}
    (goesOn : ∀ value, Lands goal (next value)) : Lands goal (first >>= next) := by
  cases first with
  | error stop => trivial
  | ok value => exact goesOn value

theorem lands_pop {next : U256 × Vm → Except Stop Vm}
    (goesOn : ∀ value stack, Lands goal (next (value, { vm with stack }))) :
    Lands goal (vm.pop >>= next) := by
  unfold Vm.pop
  split
  · trivial
  · exact goesOn _ _

theorem lands_popUsize {next : Nat × Vm → Except Stop Vm}
    (goesOn : ∀ number stack, Lands goal (next (number, { vm with stack }))) :
    Lands goal (vm.popUsize >>= next) := by
  simp only [Vm.popUsize, bind_assoc, pure_bind]
  exact lands_pop fun _ _ => lands_bind fun _ => goesOn _ _

theorem lands_ensureMemory {end_ : Nat} {next : Vm → Except Stop Vm}
    (goesOn : ∀ memory, Lands goal (next { vm with memory })) :
    Lands goal (vm.ensureMemory end_ >>= next) := by
  unfold Vm.ensureMemory
  split
  · split
    · trivial
    · exact goesOn _
  · exact goesOn _

theorem lands_validateJumpdest {dest : Nat} {next : Unit → Except Stop Vm}
    (goesOn : env.code[dest]? = some 0x5b → Lands goal (next ())) :
    Lands goal (validateJumpdest env dest >>= next) := by
  unfold validateJumpdest
  split
  · trivial
  · next byte found =>
    split
    · next mark => exact goesOn (mark ▸ found)
    · trivial

theorem exec_lands {op : Opcode} :
    Lands (fun after => after.pc = vm.pc + op.width ∨ env.code[after.pc]? = some 0x5b)
      (exec overflowChecks keccak256 db env vm op) := by
  cases op with
  | jump => exact lands_popUsize fun _ _ => lands_validateJumpdest Or.inr
  | jumpi =>
    refine lands_popUsize fun _ _ => lands_pop fun _ _ => ?_
    dsimp only
    split
    · exact Or.inl rfl
    · exact lands_validateJumpdest Or.inr
  | _ =>
    -- The others take their operands, make room and compute; only a push moves the counter.
    simp only [exec, binop, Vm.sha3, Vm.calldataload, Vm.copy, Vm.mload, Vm.mstore, Vm.mstore8,
      Vm.sload, Vm.sstore, Vm.pushn, Vm.dup, Vm.swap]
    repeat' with_reducible first
      | refine lands_popUsize fun _ _ => ?_
      | refine lands_pop fun _ _ => ?_
      | refine lands_ensureMemory fun _ => ?_
      | refine lands_bind fun _ => ?_
      | split
    all_goals first | trivial | exact Or.inl rfl

theorem fetch_keeps (vm : Vm) : Lands (fun ready => ready.pc = vm.pc) (fetch env vm) := by
  unfold fetch
  repeat' split
  all_goals trivial

variable (marked : ∀ dest, env.code[dest]? = some 0x5b → Boundary env.code dest)
include marked

theorem turn_lands (boundary : Boundary env.code vm.pc) :
    Lands (fun after => Boundary env.code after.pc)
      ((interpreter overflowChecks keccak256 db env).turn vm) := by
  change Lands _ (fetch env vm >>= act overflowChecks keccak256 db env)
  refine (fetch_keeps vm).bind fun ready same => ?_
  rw [← same] at boundary
  unfold act
  split
  · trivial
  · next byte found =>
    refine exec_lands.imp (fun _ _ => trivial) fun after lands => ?_
    -- Past a push the counter is at the next boundary by definition, after a jump by `marked`.
    rcases lands with next | jumped
    · rw [next]
      exact boundary.next found
    · exact marked after.pc jumped

theorem turns_lands (count : Nat) (vm : Vm) (boundary : Boundary env.code vm.pc) :
    Lands (fun after => Boundary env.code after.pc)
      ((interpreter overflowChecks keccak256 db env).turns count vm) := by
  induction count generalizing vm with
  | zero => exact boundary
  | succ count ih => exact (turn_lands marked boundary).bind ih

/-- If every mark in the code is an instruction of its own, the program counter is at a boundary
after any number of turns. -/
theorem turns_at_boundary {after : Vm} {count : Nat} (start : vm.pc = 0)
    (ran : (interpreter overflowChecks keccak256 db env).turns count vm = .ok after) :
    Boundary env.code after.pc := by
  have lands := @turns_lands overflowChecks keccak256 db env marked count vm (start ▸ .start)
  rwa [ran] at lands

end

/-- The program jumps to its last byte, the data of a push. -/
def jumpIntoData : List UInt8 := [0x60, 4, 0x56, 0x60, 0x5b]

theorem jump_enters_push_data :
    ((interpreter true noHash ∅ (sampleEnv jumpIntoData)).turns 2 (sampleVm 10 2)).toOption.map
        (·.pc) = some 4 ∧
      ¬ Boundary jumpIntoData 4 := by
  refine ⟨by decide +kernel, fun boundary => ?_⟩
  -- The walk from the start closes on four offsets, and 4 is none of them.
  have boundaries : ∀ pc, Boundary jumpIntoData pc → pc ∈ [0, 2, 3, 5] := by
    intro pc reached
    induction reached with
    | start => decide
    | next _ found ih =>
      revert found
      fin_cases ih <;> (rintro ⟨⟩ <;> decide)
  exact absurd (boundaries 4 boundary) (by decide)

def jumpToMark : List UInt8 := [0x60, 3, 0x56, 0x5b]

theorem mark_at_boundary :
    ((interpreter true noHash ∅ (sampleEnv jumpToMark)).turns 3 (sampleVm 10 3)).toOption.map
        (·.pc) = some 4 ∧ Boundary jumpToMark 4 := by
  have marked : ∀ dest, jumpToMark[dest]? = some 0x5b → Boundary jumpToMark dest := by
    intro dest found
    have pushed : Boundary jumpToMark (0 + 1 + (decode 0x60).width) := .next .start rfl
    rcases dest with _ | _ | _ | _ | dest
    · cases found
    · cases found
    · cases found
    · exact .next pushed rfl
    · cases found
  refine ⟨by decide +kernel, ?_⟩
  exact @turns_at_boundary true noHash ∅ (sampleEnv jumpToMark) (sampleVm 10 3) marked _ 3 rfl rfl

end Savitri.Evm
