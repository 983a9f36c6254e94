import VectorScene.Proofs.Instruction.Advance

/-!
# The frame of an action

The transform under which an action runs can be read off the instruction that holds it. A `Context`
says where an instruction stands in a larger one, and `Context.frame` is the transform there: the last
one that is set before that place in the body of the innermost frame around it, and if none is set
there, the innermost frame itself. What is set within a frame is not looked at from outside of it, and
of the frames around a place only the innermost one.

* `mem_occurrences_iff`: the occurrences of an instruction are all the places of its actions;
* `advance_eq_drawAll`: an instruction does what its occurrences do, each under its own frame, and
  leaves the transform that the frame of what follows is.
-/

namespace VectorScene

namespace Instruction

/-! ## Places -/

/-- Where an instruction stands in a larger one, from the inside to the outside. -/
inductive Context where
  | top
  /-- Before `second`, in a place where the two are run in turn. -/
  | before (outer : Context) (second : Instruction)
  /-- After `first`, in a place where the two are run in turn. -/
  | after (outer : Context) (first : Instruction)
  /-- In the body of a frame. -/
  | inside (outer : Context) (frame : Affine)

/-- The transforms that an instruction sets outside of all frames in it, in order. -/
def sets : Instruction → List Affine
  | empty => []
  | act a => a.frame?.toList
  | within _ _ => []
  | seq a b => a.sets ++ b.sets

namespace Context

/-- The instruction that has `i` in this place. -/
def fill : Context → Instruction → Instruction
  | top, i => i
  | before c second, i => c.fill (seq i second)
  | after c first, i => c.fill (seq first i)
  | inside c m, i => c.fill (within m i)

/-- The innermost frame around the place. -/
def enclosing : Context → Option Affine
  | top => none
  | before c _ => c.enclosing
  | after c _ => c.enclosing
  | inside _ m => some m

/-- The transforms that are set before the place in the body of the innermost frame, outside of all
frames in that body, in order. -/
def earlier : Context → List Affine
  | top => []
  | before c _ => c.earlier
  | after c first => c.earlier ++ first.sets
  | inside _ _ => []

/-- The transform in this place: the last one that is set in the body of the innermost frame, or else
that frame; with no frame around it the identity stands for it. -/
def frame (c : Context) : Affine := c.earlier.getLast?.getD (c.enclosing.getD Affine.identity)

theorem frame_before (c : Context) (second : Instruction) : (before c second).frame = c.frame := rfl

theorem frame_inside (c : Context) (m : Affine) : (inside c m).frame = m := rfl

theorem frame_after (c : Context) (first : Instruction) :
    (after c first).frame = first.sets.getLast?.getD c.frame := by
  rw [frame, earlier, List.getLast?_append]
  cases first.sets.getLast? <;> rfl

theorem frame_after_within (c : Context) (m : Affine) (i : Instruction) :
    (after c (within m i)).frame = c.frame := frame_after c (within m i)

theorem frame_after_seq (c : Context) (a b : Instruction) :
    (after c (seq a b)).frame = (after (after c a) b).frame := by
  rw [frame_after, frame_after, frame_after, sets, List.getLast?_append]
  cases b.sets.getLast? <;> rfl

end Context

/-! ## Occurrences -/

/-- An action that draws or ends figures, and its place. -/
abbrev Occurrence := Context × PenAction

/-- All occurrences in an instruction that stands in a place, in the order in which they run. -/
def occurrences : Instruction → Context → List Occurrence
  | empty, _ => []
  | act a, c => if a.frame?.isNone then [(c, a)] else []
  | within m i, c => i.occurrences (c.inside m)
  | seq a b, c => a.occurrences (c.before b) ++ b.occurrences (c.after a)

/-- The actions of an instruction, in the order in which they run. -/
def actions : Instruction → List PenAction
  | empty => []
  | act a => [a]
  | within _ i => i.actions
  | seq a b => a.actions ++ b.actions

theorem map_snd_occurrences (i : Instruction) (c : Context) :
    (i.occurrences c).map Prod.snd = i.actions.filter fun a => a.frame?.isNone := by
  induction i generalizing c with
  | empty => rfl
  | act a => rw [occurrences, actions]; cases h : a.frame?.isNone <;> simp [h]
  | within m i ih => exact ih _
  | seq a b iha ihb => rw [occurrences, actions, List.map_append, iha, ihb, List.filter_append]

theorem fill_of_mem_occurrences {i : Instruction} {c : Context} {o : Occurrence}
    (h : o ∈ i.occurrences c) : o.2.frame? = none ∧ o.1.fill (act o.2) = c.fill i := by
  induction i generalizing c with
  | empty => cases h
  | act a =>
    rw [occurrences] at h
    split at h
    · rename_i ha
      rw [List.mem_singleton.mp h]
      exact ⟨Option.isNone_iff_eq_none.mp ha, rfl⟩
    · cases h
  | within m i ih => exact ih h
  | seq a b iha ihb =>
    rcases List.mem_append.mp h with h | h
    · exact iha h
    · exact ihb h

/-- The occurrences in a part of an instruction are occurrences in the whole. -/
theorem occurrences_subset_fill (c : Context) (i : Instruction) :
    i.occurrences c ⊆ (c.fill i).occurrences .top := by
  induction c generalizing i with
  | top => exact List.Subset.refl _
  | before c second ih => exact List.Subset.trans (List.subset_append_left _ _) (ih (seq i second))
  | after c first ih => exact List.Subset.trans (List.subset_append_right _ _) (ih (seq first i))
  | inside c m ih => exact ih (within m i)

/-- The occurrences are all the places of actions that draw or end figures. -/
theorem mem_occurrences_iff {i : Instruction} {c : Context} {a : PenAction} :
    (c, a) ∈ i.occurrences .top ↔ a.frame? = none ∧ c.fill (act a) = i := by
  refine ⟨fill_of_mem_occurrences, ?_⟩
  rintro ⟨ha, rfl⟩
  apply occurrences_subset_fill c (act a)
  rw [occurrences, ha]
  exact List.mem_singleton_self _

/-! ## Running occurrences -/

/-- The pen after an occurrence, under the frame of its place. -/
def Occurrence.drawBy (pen : Pen) (o : Occurrence) : Except GeometryError Pen :=
  (o.2.resolve o.1.frame).map pen.marked

/-- The pen after some occurrences. -/
def drawAll (os : List Occurrence) (pen : Pen) : Except GeometryError Pen :=
  os.foldlM Occurrence.drawBy pen

theorem drawAll_append (os os' : List Occurrence) (pen : Pen) :
    drawAll (os ++ os') pen = drawAll os pen >>= drawAll os' := List.foldlM_append

/-- An occurrence neither reads nor changes the transform of the pen. -/
theorem Occurrence.drawBy_inFrame {o : Occurrence} (ho : o.2.frame? = none) (pen : Pen) (m : Affine) :
    o.drawBy (pen.inFrame m) = (o.drawBy pen).map fun drawn => drawn.inFrame m := by
  unfold drawBy
  cases h : o.2.resolve o.1.frame with
  | error e => rfl
  | ok mark => exact congrArg Except.ok (Pen.marked_inFrame (o.2.isDrawn_of_resolve ho h) pen m)

/-- An occurrence under its frame, as an instruction. -/
def Occurrence.framed (o : Occurrence) : Instruction := within o.1.frame (act o.2)

theorem Occurrence.advance_framed {o : Occurrence} (ho : o.2.frame? = none) (pen : Pen) :
    o.framed.advance pen = o.drawBy pen := by
  rw [framed, advance_within, advance_act, Pen.transform_inFrame, drawBy]
  cases h : o.2.resolve o.1.frame with
  | error e => rfl
  | ok mark =>
    have hmark := Pen.marked_inFrame (o.2.isDrawn_of_resolve ho h) pen
    show Except.ok (((pen.inFrame o.1.frame).marked mark).inFrame pen.transform) = _
    rw [hmark, Pen.inFrame_inFrame, ← hmark, Pen.inFrame_transform]
    rfl

theorem advance_sequence_framed {os : List Occurrence} (hos : ∀ o ∈ os, o.2.frame? = none) (pen : Pen) :
    (sequence (os.map Occurrence.framed)).advance pen = drawAll os pen := by
  rw [advance_sequence]
  induction os generalizing pen with
  | nil => rfl
  | cons o os ih =>
    obtain ⟨ho, hos⟩ := List.forall_mem_cons.mp hos
    rw [List.map_cons, List.foldlM_cons, o.advance_framed ho, drawAll, List.foldlM_cons]
    cases o.drawBy pen with
    | error e => rfl
    | ok drawn => exact ih hos drawn

theorem frame?_of_mem_occurrences {i : Instruction} {c : Context} :
    ∀ o ∈ i.occurrences c, o.2.frame? = none := fun _ ho => (fill_of_mem_occurrences ho).1

/-- Run under the frame of its place, an instruction does what its occurrences do, and the frame that
it leaves is that of the place after it. -/
theorem advance_eq_drawAll (i : Instruction) (c : Context) (pen : Pen) :
    i.advance (pen.inFrame c.frame) =
      (drawAll (i.occurrences c) pen).map fun drawn => drawn.inFrame (c.after i).frame := by
  induction i generalizing c pen with
  | empty => rw [advance_empty, c.frame_after]; rfl
  | act a =>
    rw [advance_act, Pen.transform_inFrame, occurrences, c.frame_after, sets]
    cases ha : a.frame? with
    | some m =>
      rw [PenAction.frame?_eq_some_iff.mp ha]
      rfl
    | none =>
      have hone : drawAll [(c, a)] pen = Occurrence.drawBy pen (c, a) := bind_pure _
      show Occurrence.drawBy (pen.inFrame c.frame) (c, a) =
        (drawAll [(c, a)] pen).map fun drawn => drawn.inFrame c.frame
      rw [hone, Occurrence.drawBy_inFrame ha]
  | within m i ih =>
    have hbody : i.advance (pen.inFrame m) = (drawAll (i.occurrences (c.inside m)) pen).map
        fun drawn => drawn.inFrame ((c.inside m).after i).frame := ih (c.inside m) pen
    rw [advance_within, Pen.inFrame_inFrame, hbody, occurrences, c.frame_after_within]
    cases drawAll (i.occurrences (c.inside m)) pen <;> rfl
  | seq a b iha ihb =>
    -- What follows `a` does not see that `b` stands after it.
    have hmiddle : ((c.before b).after a).frame = (c.after a).frame := by
      rw [Context.frame_after, Context.frame_after, Context.frame_before]
    rw [advance_seq, ← c.frame_before b, iha, hmiddle, occurrences, drawAll_append,
      Context.frame_after_seq]
    cases drawAll (a.occurrences (c.before b)) pen with
    | error e => rfl
    | ok drawn => exact ihb (c.after a) drawn

/-- An instruction constructs what the sequence of its occurrences constructs, each in a frame of its
own, which is the transform of its place; or it fails as that sequence does. The occurrences are its
actions that draw or end figures, in order, in all their places. Nothing that is set within a frame
is seen after it, and a frame takes the place of those around it. -/
theorem construct_eq_framed (i : Instruction) :
    i.construct = (sequence ((i.occurrences .top).map Occurrence.framed)).construct ∧
    ((i.occurrences .top).map Prod.snd = i.actions.filter fun a => a.frame?.isNone) ∧
    (∀ c a, (c, a) ∈ i.occurrences .top ↔ a.frame? = none ∧ c.fill (act a) = i) ∧
    (∀ m pen, (seq (within m i) (act (.setTransform pen.transform))).advance pen =
      (within m i).advance pen) ∧
    ∀ m n pen, (within m (within n i)).advance pen = (within n i).advance pen := by
  refine ⟨?_, map_snd_occurrences i .top, fun c a => mem_occurrences_iff, fun m pen => ?_,
    fun m n pen => ?_⟩
  · have hnew : i.advance {} =
        (drawAll (i.occurrences .top) {}).map fun drawn => drawn.inFrame (Context.top.after i).frame :=
      advance_eq_drawAll i .top {}
    rw [construct_eq_advance, construct_eq_advance, hnew,
      advance_sequence_framed frame?_of_mem_occurrences]
    cases drawAll (i.occurrences .top) {} <;> rfl
  · rw [advance_seq, advance_within]
    cases i.advance (pen.inFrame m) <;> rfl
  · rw [advance_within, advance_within, advance_within, Pen.inFrame_inFrame]
    cases i.advance (pen.inFrame n) <;> rfl

end Instruction

end VectorScene
