import VectorScene.Proofs.Instruction.Compile
import VectorScene.Proofs.Pen.Transform

/-!
# Instructions as functions on pens

A failed run has no use for the pen that it leaves, so what an instruction does is a function from
pens to pens that may fail. `Instruction.advance` is this function, with one equation for each kind of
instruction, and `construct_eq_advance` says that it gives the path of the instruction.
-/

namespace VectorScene

namespace Instruction

/-- The pen that an instruction leaves, or why its run failed. -/
def advance (i : Instruction) (pen : Pen) : Except GeometryError Pen :=
  match i.run pen with
  | .ok () pen' => .ok pen'
  | .error e _ => .error e

theorem advance_empty (pen : Pen) : empty.advance pen = .ok pen := rfl

theorem advance_act (a : PenAction) (pen : Pen) :
    (act a).advance pen = (a.resolve pen.transform).map pen.marked := by
  rw [advance, run, a.perform_eq]
  cases a.resolve pen.transform <;> rfl

theorem advance_within (m : Affine) (i : Instruction) (pen : Pen) :
    (within m i).advance pen =
      (i.advance (pen.inFrame m)).map fun inner => inner.inFrame pen.transform := by
  rw [advance, run_within, advance, Pen.inFrame]
  cases i.run { pen with transform := m } <;> rfl

theorem advance_seq (a b : Instruction) (pen : Pen) :
    (seq a b).advance pen = a.advance pen >>= b.advance := by
  rw [advance, run_seq, advance]
  cases a.run pen <;> rfl

theorem combine_cases (a b : Instruction) :
    (a = empty ∧ combine a b = b) ∨ (b = empty ∧ combine a b = a) ∨ combine a b = seq a b := by
  unfold combine
  split
  · rename_i ha
    cases a with
    | empty => exact .inl ⟨rfl, rfl⟩
    | _ => cases ha
  · split
    · rename_i hb
      cases b with
      | empty => exact .inr (.inl ⟨rfl, rfl⟩)
      | _ => cases hb
    · exact .inr (.inr rfl)

theorem advance_combine (a b : Instruction) (pen : Pen) :
    (combine a b).advance pen = a.advance pen >>= b.advance := by
  obtain ⟨rfl, h⟩ | ⟨rfl, h⟩ | h := combine_cases a b <;> rw [h]
  · rfl
  · cases a.advance pen <;> rfl
  · exact advance_seq a b pen

theorem advance_foldl_combine (acc : Instruction) (is : List Instruction) (pen : Pen) :
    (is.foldl combine acc).advance pen =
      acc.advance pen >>= fun pen => is.foldlM (fun pen i => i.advance pen) pen := by
  induction is generalizing acc with
  | nil => exact (bind_pure (acc.advance pen)).symm
  | cons i is ih => rw [List.foldl_cons, ih, advance_combine, bind_assoc]; rfl

/-- A sequence is run one instruction after the other, until one fails. -/
theorem advance_sequence (is : List Instruction) (pen : Pen) :
    (sequence is).advance pen = is.foldlM (fun pen i => i.advance pen) pen :=
  advance_foldl_combine empty is pen

/-- The pen of a compilation is the one that the instruction leaves. -/
theorem advance_of_compile {i : Instruction} {c : Compilation} (h : i.compile = .ok c) :
    i.advance {} = .ok c.pen := by
  rw [advance]
  cases hrun : i.run {} with
  | error e pen => rw [compile_of_run_error hrun] at h; cases h
  | ok _ pen => rw [compile_of_run_ok hrun] at h; cases h; rfl

/-- An instruction that leaves a pen compiles to what the pen has drawn. -/
theorem exists_compile_of_advance {i : Instruction} {pen : Pen} (h : i.advance {} = .ok pen) :
    ∃ c, i.compile = .ok c ∧ c.pen = pen := by
  rw [advance] at h
  cases hrun : i.run {} with
  | error e pen' => rw [hrun] at h; cases h
  | ok _ pen' =>
    rw [hrun] at h
    cases h
    exact ⟨_, compile_of_run_ok hrun, rfl⟩

theorem construct_eq_advance (i : Instruction) : i.construct = (i.advance {}).map Pen.build := by
  rw [construct_eq, advance]
  cases i.run {} <;> rfl

end Instruction

end VectorScene
