import IrStream.Proofs.Encode.Basic
import IrStream.Proofs.Pairing.EncodeModule
import IrStream.Proofs.Renaming.Basic

/-!
# Encoding under other handles

A built program and a renamed one are encoded to the same bytes, with the same names of globals and
the same counts, or fail with the same error (`encode_renamed`).

Nothing about encoding has to be shown for that.  The two programs are alike (`Embedded.alike`), so
they are encoded step by step to the same records, and instructions keep their handles, so not even
texts differ (`Program.Alike.encodeLogged_eq`).

Positions in the stream are therefore no function of handles.  They are given out in the order in
which things are met, and a program may have been built in any order, with any types and constants
that it does not use between those that it does.  The example puts one of each in front of
everything that a program has, which moves all handles but those that are fixed.

## Statements

* `Renamed.encodeLogged_eq`: the outcome and the log of encoding are equal.  The log is part of it
  because events carry texts, and a text could have given a handle away.
* `encode_renamed`: the outcome alone, for any renaming.
* `encode_renamed_addOne`: two programs that are not equal and have the same module.

What is left to the renaming is small.  It has to be injective on handles that are in use, and it
has to fix the handles of the types that every arena begins with, since the encoder mentions these
by themselves.
-/

set_option autoImplicit false

namespace IrStream

namespace Program

/-- **Outcome and log** are the same. -/
theorem Renamed.encodeLogged_eq {ρ : Renaming} {program other : Program}
    (renamed : program.Renamed ρ other) (built : program.Built) (word : WordSize) :
    other.encodeLogged word = program.encodeLogged word := by
  have size : other.functions.size = program.functions.size := by
    rw [renamed.functions, Array.size_map]
  exact (renamed.embedded.alike built).encodeLogged_eq word size
    (fun _ => lt_size_of_mem_functionIds) ρ.exact_pairing

/-- `addOne` behind a type, a constant and a global that it does not use. -/
def addOneShifted : Program where
  layout := .standard
  types := ⟨#[.void, .int 1, .int 8, .int 32, .int 64, .ptr 0, .array .i8 3,
    .func [.i32] .i32 false]⟩
  constants := ⟨#[.null .ptr, .int .i32 1]⟩
  globals := #[⟨"unused", ⟨6⟩, false, some ⟨0⟩⟩]
  functions := #[⟨"addOne", ⟨7⟩, [⟨0⟩], [⟨0⟩]⟩]
  blocks := #[⟨⟨0⟩, none, [⟨0⟩, ⟨1⟩]⟩]
  insts := #[
    ⟨.binary .add, .i32, [.arg ⟨0⟩, .const ⟨1⟩], none, ⟨0⟩⟩,
    ⟨.ret, .void, [.inst ⟨0⟩], none, ⟨0⟩⟩]
  args := #[⟨⟨0⟩, 0, .i32, none⟩]

/-- One handle further on, but for the types that every arena begins with. -/
def shift : Renaming where
  type id := if id.index ≤ 5 then id else ⟨id.index + 1⟩
  constant id := ⟨id.index + 1⟩
  global id := ⟨id.index + 1⟩

/-- All handles are one larger, except for those of the types that an arena begins with. -/
theorem renamed_addOne : addOne.Renamed shift addOneShifted where
  typeInj := by
    rintro ⟨id⟩ - ⟨again⟩ - same
    simp only [shift] at same
    split at same <;> split at same <;> simp only [TypeId.mk.injEq] at same ⊢ <;> omega
  constantInj := by
    rintro ⟨id⟩ - ⟨again⟩ - same
    simpa [shift] using same
  globalInj := by
    rintro ⟨id⟩ - ⟨again⟩ - same
    simpa [shift] using same
  basic small := if_pos small
  layout := rfl
  shape {id shape} found := by
    have all : ∀ index : Fin 7, addOneShifted.types.shape (shift.type ⟨index⟩)
        = (addOne.types.shape ⟨index⟩).map (·.rename shift) := by decide +kernel
    have moved := all ⟨id.index, Types.has_of_shape found⟩
    rwa [found] at moved
  constant {id constant} found := by
    have bound : id.index < 1 := Constants.lt_size_of_constant found
    obtain ⟨index⟩ := id
    obtain rfl : index = 0 := Nat.lt_one_iff.mp bound
    cases found
    rfl
  global found := by simp [global_eq_ok_iff, addOne] at found
  functions := by decide +kernel
  args := by decide +kernel
  blocks := rfl
  insts := by decide +kernel

end Program

/-- **Encoding does not depend on handles**: a program and what it is renamed to have the same
outcome, the same bytes, names of globals and counts or the same error.  A renaming may be any
injective map of handles, and the other program may have more entries that nothing refers to. -/
theorem encode_renamed {ρ : Renaming} {program other : Program} (built : program.Built)
    (renamed : program.Renamed ρ other) (word : WordSize) :
    other.encode word = program.encode word :=
  congrArg Prod.fst (renamed.encodeLogged_eq built word)

/-- In the second program there are entries in front, so its handles are other ones. -/
theorem encode_renamed_addOne :
    Program.addOneShifted ≠ Program.addOne
    ∧ ∃ module, Program.addOne.encode .eight = .ok module
      ∧ Program.addOneShifted.encode .eight = .ok module := by
  obtain ⟨module, outcome⟩ := encode_addOne
  refine ⟨by decide +kernel, module, outcome, ?_⟩
  rw [encode_renamed Program.built_addOne Program.renamed_addOne .eight, outcome]

end IrStream
