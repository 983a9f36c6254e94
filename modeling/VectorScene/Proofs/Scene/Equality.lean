import Mathlib.Tactic.Tauto
import VectorScene.Scene.Equality
import VectorScene.Proofs.Numeric
import VectorScene.Proofs.Scene.Stamp

/-!
# Equality of scenes, node by node

Two scenes are equal if they are one node, or if they are of one kind, with equal contents and equal
children (`Scene.Equal`). The comparison with a stack finds out whether all pairs on it are equal
(`Scene.allEqual_iff`), so `==` is that relation. The shortcut for one node makes it reflexive where a NaN
makes the equality of contents not so. It does not make it less transitive, because no other scene bears
the stamp of a node (`Scene.Equal.trans`), and without a NaN it only saves work: scenes are then equal if
they are so by contents alone (`Scene.Equal.alike`).
-/

namespace VectorScene

/-! ## Items -/

section Items

open Numeric

instance : Numeric Color where
  numbers c := [c.r, c.g, c.b, c.a]
  shape _ := Color.clear
  length_numbers_shape _ := rfl
  beq_iff := by simp [EqualNumbers, BEq.beq, instBEqColor.beq]

instance : Numeric Tool where
  numbers
    | .stroke c width => numbers c ++ [width]
    | .fill c => numbers c
  shape
    | .stroke c _ => .stroke (shape c) 0
    | .fill c => .fill (shape c)
  length_numbers_shape t := by cases t <;> rfl
  beq_iff {t u} := by
    cases t <;> cases u
    case stroke.stroke c w d v =>
      show (c == d && w == v) = true ↔
        Tool.stroke (shape c) (shape w) = .stroke (shape d) (shape v) ∧
          EqualNumbers (numbers c ++ numbers w) (numbers d ++ numbers v)
      rw [Bool.and_eq_true, beq_iff, beq_iff, EqualNumbers.both_iff length_numbers, Tool.stroke.injEq]
    case fill.fill c d => exact beq_iff_of_injective (fun _ _ => Tool.fill.inj) c d
    all_goals exact iff_of_false nofun fun h => nomatch h.1

theorem TextAlign.beq_iff {a b : TextAlign} : a == b ↔ a = b := by
  cases a <;> cases b <;> decide

instance : Numeric TextOptions where
  numbers o := [o.size, o.origin.x, o.origin.y, o.lineSpacing]
  shape o := { o with size := 0, origin := Point.origin, lineSpacing := 0 }
  length_numbers_shape _ := rfl
  beq_iff {o q} := by
    have horigin : o.origin == q.origin ↔ o.origin.x == q.origin.x ∧ o.origin.y == q.origin.y :=
      Bool.and_eq_true_iff
    show (o.family == q.family && (o.size == q.size && (o.origin == q.origin &&
      (o.align == q.align && o.lineSpacing == q.lineSpacing)))) = true ↔ _
    simp only [Bool.and_eq_true, beq_iff_eq, TextAlign.beq_iff, horigin, EqualNumbers,
      List.forall₂_cons, List.forall₂_nil_left_iff, TextOptions.mk.injEq]
    tauto

instance : Numeric Primitive where
  numbers
    | .arc a => numbers a
    | .cubicBezier p c₁ c₂ q => numbers [p, c₁, c₂, q]
    | .line p q => numbers [p, q]
    | .polyline points => numbers points
    | .path p => numbers p
  shape
    | .arc a => .arc (shape a)
    | .cubicBezier p c₁ c₂ q => .cubicBezier (shape p) (shape c₁) (shape c₂) (shape q)
    | .line p q => .line (shape p) (shape q)
    | .polyline points => .polyline (shape points)
    | .path p => .path (shape p)
  length_numbers_shape s := by
    cases s with
    | polyline points => exact length_numbers_shape points
    | path p => exact length_numbers_shape p
    | _ => rfl
  beq_iff {s t} := by
    cases s <;> cases t
    case arc.arc a b => exact beq_iff_of_injective (fun _ _ => Primitive.arc.inj) a b
    case polyline.polyline ps qs => exact beq_iff_of_injective (fun _ _ => Primitive.polyline.inj) ps qs
    case path.path p q => exact beq_iff_of_injective (fun _ _ => Primitive.path.inj) p q
    case cubicBezier.cubicBezier =>
      simp [EqualNumbers, BEq.beq, instBEqPrimitive.beq, instBEqPoint.beq, numbers, shape, and_assoc]
    case line.line =>
      simp [EqualNumbers, BEq.beq, instBEqPrimitive.beq, instBEqPoint.beq, numbers, shape, and_assoc]
    all_goals exact iff_of_false nofun fun h => nomatch h.1

instance : Numeric Item where
  numbers
    | .shape t p => numbers t ++ numbers p
    | .text t _ o => numbers t ++ numbers o
    | .textAlong t _ o p => numbers t ++ (numbers o ++ numbers p)
  shape
    | .shape t p => .shape (shape t) (shape p)
    | .text t s o => .text (shape t) s (shape o)
    | .textAlong t s o p => .textAlong (shape t) s (shape o) (shape p)
  length_numbers_shape i := by
    cases i <;> simp [length_numbers_shape]
  beq_iff {i j} := by
    cases i <;> cases j
    case shape.shape t p u q =>
      show (t == u && p == q) = true ↔ Item.shape (shape t) (shape p) = .shape (shape u) (shape q) ∧ _
      rw [Bool.and_eq_true, beq_iff, beq_iff, EqualNumbers.both_iff length_numbers, Item.shape.injEq]
    case text.text t s o u r q =>
      show (t == u && (s == r && o == q)) = true ↔
        Item.text (shape t) s (shape o) = .text (shape u) r (shape q) ∧ _
      rw [Bool.and_eq_true, Bool.and_eq_true, beq_iff, beq_iff_eq, beq_iff, ← and_assoc (a := s = r),
        EqualNumbers.both_iff length_numbers, Item.text.injEq]
    case textAlong.textAlong t s o p u r q l =>
      show (t == u && (s == r && (o == q && p == l))) = true ↔
        Item.textAlong (shape t) s (shape o) (shape p) = .textAlong (shape u) r (shape q) (shape l) ∧ _
      rw [Bool.and_eq_true, Bool.and_eq_true, Bool.and_eq_true, beq_iff, beq_iff_eq, beq_iff, beq_iff,
        EqualNumbers.both_iff (p := shape o = _) length_numbers, ← and_assoc (a := s = r),
        EqualNumbers.both_iff length_numbers, Item.textAlong.injEq]
    all_goals exact iff_of_false nofun fun h => nomatch h.1

end Items

/-! ## Scenes -/

namespace Scene

/-- Whether two scenes match, where a pair that is found to be `shared` is not looked into: any other two
match if they are of one kind, with equal contents and matching children. -/
inductive Matches (shared : Scene → Scene → Prop) : Scene → Scene → Prop where
  | shared {a b : Scene} : shared a b → Matches shared a b
  | empty : Matches shared empty empty
  | item {m n : Nat} {i j : Item} : i == j → Matches shared (item m i) (item n j)
  | union {m n : Nat} {a b c d : Scene} :
    Matches shared a c → Matches shared b d → Matches shared (union m a b) (union n c d)
  | transformed {m n : Nat} {f g : Affine} {a b : Scene} :
    f == g → Matches shared a b → Matches shared (transformed m f a) (transformed n g b)

/-- Two scenes that are one node are equal, and so are two of one kind, with equal contents and equal
children. -/
abbrev Equal : Scene → Scene → Prop := Matches fun a b => a.sameNode b

/-- Two scenes are alike if they are equal whatever nodes they share. -/
abbrev Alike : Scene → Scene → Prop := Matches fun _ _ => False

theorem sameNode_self (a : Scene) : a.sameNode a := beq_self_eq_true _

theorem sameNode_symm {a b : Scene} (h : a.sameNode b) : b.sameNode a := by
  rw [sameNode, beq_iff_eq] at h ⊢
  exact h.symm

/-! ## The stack of pairs -/

/-- Scenes that are not one node are equal by their contents and their children. -/
theorem equal_iff_of_not_sameNode {a b : Scene} (hnode : ¬ a.sameNode b) :
    a.Equal b ↔
      match a, b with
      | item _ i, item _ j => i == j
      | union _ a₁ a₂, union _ b₁ b₂ => a₁.Equal b₁ ∧ a₂.Equal b₂
      | transformed _ f a, transformed _ g b => f == g ∧ a.Equal b
      | _, _ => False := by
  constructor
  · intro h
    cases h with
    | shared hsame => exact absurd hsame hnode
    | empty => exact absurd rfl hnode
    | item h => exact h
    | union h₁ h₂ => exact ⟨h₁, h₂⟩
    | transformed hfg h => exact ⟨hfg, h⟩
  · intro h
    split at h
    · exact .item h
    · exact .union h.1 h.2
    · exact .transformed h.1 h.2
    · exact h.elim

/-- The comparison finds out whether the scenes of every pair are equal. -/
theorem allEqual_iff (pairs : List (Scene × Scene)) :
    allEqual pairs ↔ ∀ pair ∈ pairs, pair.1.Equal pair.2 := by
  fun_induction allEqual pairs with
  | case1 => exact iff_of_true rfl nofun
  | case2 a b rest hsame ih =>
    rw [List.forall_mem_cons, ← ih]
    exact (and_iff_right (.shared hsame)).symm
  | case3 rest m i n j hnode ih =>
    rw [List.forall_mem_cons, equal_iff_of_not_sameNode hnode, ← ih, Bool.and_eq_true]
  | case4 rest m a b n c d hnode ih =>
    rw [List.forall_mem_cons, equal_iff_of_not_sameNode hnode, ih, List.forall_mem_cons,
      List.forall_mem_cons, and_assoc]
  | case5 rest m f s n g t hnode ih =>
    rw [List.forall_mem_cons, equal_iff_of_not_sameNode hnode, Bool.and_eq_true, ih,
      List.forall_mem_cons, and_assoc]
  | case6 a b rest hnode hitem hunion htransformed =>
    -- The kinds differ, so there is no rule by which the pair on top could be equal.
    refine iff_of_false nofun fun h => ?_
    cases (List.forall_mem_cons.mp h).1 with
    | shared hsame => exact hnode hsame
    | empty => exact hnode rfl
    | item _ => exact hitem _ _ _ _ rfl rfl
    | union _ _ => exact hunion _ _ _ _ _ _ rfl rfl
    | transformed _ _ => exact htransformed _ _ _ _ _ _ rfl rfl

theorem beq_iff_equal (a b : Scene) : a == b ↔ a.Equal b := by
  show allEqual [(a, b)] ↔ _
  rw [allEqual_iff, List.forall_mem_singleton]

/-! ## Laws -/

theorem Matches.symm {shared : Scene → Scene → Prop} (hshared : ∀ {a b}, shared a b → shared b a)
    {a b : Scene} (h : Matches shared a b) : Matches shared b a := by
  induction h with
  | shared h => exact .shared (hshared h)
  | empty => exact .empty
  | item h => exact .item (Numeric.beq_symm h)
  | union _ _ ih ih' => exact .union ih ih'
  | transformed h _ ih => exact .transformed (Numeric.beq_symm h) ih

/-- What is alike is equal. -/
theorem Alike.equal {a b : Scene} (h : a.Alike b) : a.Equal b := by
  induction h with
  | shared h => exact h.elim
  | empty => exact .empty
  | item h => exact .item h
  | union _ _ ih ih' => exact .union ih ih'
  | transformed h _ ih => exact .transformed h ih

/-- All numbers of the scene, in its items and its transforms. -/
def numbers : Scene → List Float32
  | empty => []
  | item _ i => Numeric.numbers i
  | union _ a b => a.numbers ++ b.numbers
  | transformed _ m s => Numeric.numbers m ++ s.numbers

/-- A scene without a NaN is like itself. -/
theorem alike_self {s : Scene} (h : ∀ x ∈ s.numbers, x.isNaN = false) : s.Alike s := by
  induction s with
  | empty => exact .empty
  | item _ i => exact .item (Numeric.beq_self_iff.mpr h)
  | union _ a b iha ihb =>
    obtain ⟨ha, hb⟩ := List.forall_mem_append.mp h
    exact .union (iha ha) (ihb hb)
  | transformed _ m s ih =>
    obtain ⟨hm, hs⟩ := List.forall_mem_append.mp h
    exact .transformed (Numeric.beq_self_iff.mpr hm) (ih hs)

section Listed

variable {nodes : List Scene} {a b c : Scene}

theorem Equal.trans (ha : a.ListedIn nodes) (hb : b.ListedIn nodes) (hc : c.ListedIn nodes)
    (h : a.Equal b) (h' : b.Equal c) : a.Equal c := by
  induction h generalizing c with
  | shared hsame => rwa [ha.eq_of_sameNode hb hsame]
  | empty => exact h'
  | item hij =>
    cases h' with
    | shared hsame =>
      rw [← hb.eq_of_sameNode hc hsame]
      exact .item hij
    | item hjk => exact .item (Numeric.beq_trans hij hjk)
  | union h₁ h₂ ih₁ ih₂ =>
    cases h' with
    | shared hsame =>
      rw [← hb.eq_of_sameNode hc hsame]
      exact .union h₁ h₂
    | union h₁' h₂' =>
      exact .union (ih₁ ha.2.1 hb.2.1 hc.2.1 h₁') (ih₂ ha.2.2 hb.2.2 hc.2.2 h₂')
  | transformed hfg h ih =>
    cases h' with
    | shared hsame =>
      rw [← hb.eq_of_sameNode hc hsame]
      exact .transformed hfg h
    | transformed hgk h' => exact .transformed (Numeric.beq_trans hfg hgk) (ih ha.2 hb.2 hc.2 h')

/-- Without a NaN, it makes no difference which nodes are shared. -/
theorem Equal.alike (ha : a.ListedIn nodes) (hb : b.ListedIn nodes)
    (hnumbers : ∀ x ∈ a.numbers, x.isNaN = false) (h : a.Equal b) : a.Alike b := by
  induction h with
  | shared hsame =>
    rw [← ha.eq_of_sameNode hb hsame]
    exact alike_self hnumbers
  | empty => exact .empty
  | item hij => exact .item hij
  | union _ _ ih₁ ih₂ =>
    obtain ⟨hleft, hright⟩ := List.forall_mem_append.mp hnumbers
    exact .union (ih₁ ha.2.1 hb.2.1 hleft) (ih₂ ha.2.2 hb.2.2 hright)
  | transformed hfg _ ih =>
    obtain ⟨-, hinner⟩ := List.forall_mem_append.mp hnumbers
    exact .transformed hfg (ih ha.2 hb.2 hinner)

end Listed

end Scene

namespace Workbench

/-- Of the scenes that a run makes, `==` says whether they are equal, node by node. It is an equivalence,
also where scenes hold a NaN. Where one of two scenes holds none, it is the equality of their contents
alone, whatever nodes they share. -/
theorem beq_laws_of_mem_run (operations : List Operation) {a b c : Scene}
    (ha : a ∈ (run operations).scenes) (hb : b ∈ (run operations).scenes)
    (hc : c ∈ (run operations).scenes) :
    (a == b ↔ a.Equal b) ∧
    a == a ∧
    (a == b → b == a) ∧
    (a == b → b == c → a == c) ∧
    ((∀ x ∈ a.numbers, x.isNaN = false) → (a == b ↔ a.Alike b)) := by
  obtain ⟨nodes, hlisted⟩ := Listed.run operations
  have ha := hlisted.scenes a ha
  have hb := hlisted.scenes b hb
  have hc := hlisted.scenes c hc
  refine ⟨Scene.beq_iff_equal a b, ?_⟩
  simp only [Scene.beq_iff_equal]
  exact ⟨.shared (Scene.sameNode_self a), Scene.Matches.symm Scene.sameNode_symm,
    Scene.Equal.trans ha hb hc, fun hnumbers => ⟨Scene.Equal.alike ha hb hnumbers, Scene.Alike.equal⟩⟩

theorem scene_mem {w : Workbench} {k : Nat} (h : k < w.scenes.length) : w.scene k ∈ w.scenes := by
  rw [scene, List.getD_eq_getElem?_getD, List.getElem?_eq_getElem h]
  exact List.getElem_mem h

/-- A line to nowhere, moved twice in the same way, and made once more; and a line that is made twice. -/
def twinRun : List Operation :=
  [.ofItem (.shape (.fill .black) (.line ⟨0, 0⟩ ⟨0 / 0, 1⟩)), .translate 1 0 0, .translate 1 0 0,
    .ofItem (.shape (.fill .black) (.line ⟨0, 0⟩ ⟨0 / 0, 1⟩)),
    .ofItem (.shape (.fill .black) (.line ⟨0, 0⟩ ⟨1, 1⟩)),
    .ofItem (.shape (.fill .black) (.line ⟨-0, 0⟩ ⟨1, 1⟩))]

theorem beq_laws_twinRun :
    (∀ k < 6, (run twinRun).scene k ∈ (run twinRun).scenes) ∧
    (run twinRun).scene 1 == (run twinRun).scene 2 ∧
    (run twinRun).scene 2 == (run twinRun).scene 1 ∧
    (run twinRun).scene 1 == (run twinRun).scene 1 ∧
    ¬ (run twinRun).scene 0 == (run twinRun).scene 3 ∧
    (∀ x ∈ ((run twinRun).scene 4).numbers, x.isNaN = false) ∧
    (run twinRun).scene 4 == (run twinRun).scene 5 := by
  have hlength : (run twinRun).scenes.length = 6 := by decide +kernel
  have hmem : ∀ k < 6, (run twinRun).scene k ∈ (run twinRun).scenes := fun k hk =>
    scene_mem (hlength ▸ hk)
  have hnumbers : ∀ x ∈ ((run twinRun).scene 4).numbers, x.isNaN = false := by decide +kernel
  obtain ⟨hmoved, hself, hsymm, -⟩ := beq_laws_of_mem_run twinRun
    (hmem 1 (by decide)) (hmem 2 (by decide)) (hmem 1 (by decide))
  obtain ⟨hagain, -⟩ := beq_laws_of_mem_run twinRun
    (hmem 0 (by decide)) (hmem 3 (by decide)) (hmem 0 (by decide))
  obtain ⟨-, -, -, -, hzeros⟩ := beq_laws_of_mem_run twinRun
    (hmem 4 (by decide)) (hmem 5 (by decide)) (hmem 4 (by decide))
  have hequal : (run twinRun).scene 1 == (run twinRun).scene 2 :=
    hmoved.mpr (.transformed (by decide +kernel) (.shared rfl))
  refine ⟨hmem, hequal, hsymm hequal, hself, fun h => ?_, hnumbers,
    (hzeros hnumbers).mpr (.item (by decide +kernel))⟩
  cases hagain.mp h with
  | shared hsame => exact absurd hsame (by decide +kernel)
  | item hline => exact absurd hline (by decide +kernel)

end Workbench

end VectorScene
