import VectorScene.Proofs.Canvas.Clipping

/-!
# Which pixels are marked

The pixels of a raster lie row by row, so each of them is known by its place: a place belongs to one
column and one row (`Extent.exists_index`), and no column and row of the raster lie outside of it
(`Extent.index_lt`). `Extent.places` are the places of all pixels that some triangles cover, in the
order in which they are found, and again for each triangle that covers them. The coverage marks these
and no others (`Coverage.isMarked_ofTriangles`).

Where each place is looked up, marks are made if each place is one of the raster
(`Coverage.ofTriangles?_eq`), and so they are if the pixels are (`Extent.ContainsCovered`).
-/

namespace VectorScene

/-! ## Places -/

namespace Extent

theorem index_lt {e : Extent} {x y : Nat} (hx : x < e.width) (hy : y < e.height) :
    e.index x y < e.pixelCount :=
  calc y * e.width + x < y * e.width + e.width := Nat.add_lt_add_left hx _
    _ = (y + 1) * e.width := (Nat.succ_mul y e.width).symm
    _ ≤ e.height * e.width := Nat.mul_le_mul_right e.width hy
    _ = e.width * e.height := Nat.mul_comm e.height e.width

/-- Every place of a raster belongs to one of its columns and rows. -/
theorem exists_index {e : Extent} {i : Nat} (hi : i < e.pixelCount) :
    ∃ x y, x < e.width ∧ y < e.height ∧ e.index x y = i := by
  have hwidth : 0 < e.width := Nat.pos_of_mul_pos_right (Nat.zero_lt_of_lt hi)
  refine ⟨i % e.width, i / e.width, Nat.mod_lt i hwidth, ?_, ?_⟩
  · exact Nat.div_lt_of_lt_mul hi
  · rw [index, Nat.mul_comm]
    exact Nat.div_add_mod i e.width

/-- A pixel is found from its place. -/
theorem index_mod_div {e : Extent} {x y : Nat} (hx : x < e.width) :
    e.index x y % e.width = x ∧ e.index x y / e.width = y := by
  constructor
  · rw [index, Nat.mul_add_mod', Nat.mod_eq_of_lt hx]
  · rw [index, Nat.mul_comm, Nat.mul_add_div (Nat.zero_lt_of_lt hx), Nat.div_eq_of_lt hx, Nat.add_zero]

theorem index_inj {e : Extent} {x y x' y' : Nat} (hx : x < e.width) (hx' : x' < e.width)
    (h : e.index x y = e.index x' y') : x = x' ∧ y = y' := by
  obtain ⟨hcolumn, hrow⟩ := index_mod_div (y := y) hx
  obtain ⟨hcolumn', hrow'⟩ := index_mod_div (y := y') hx'
  rw [h] at hcolumn hrow
  exact ⟨hcolumn.symm.trans hcolumn', hrow.symm.trans hrow'⟩

/-- The places of the pixels that triangles cover, one triangle after the other. -/
def places (e : Extent) (ts : List Triangle) : List Nat :=
  ts.flatMap fun t => (e.covered t).map fun p => e.index p.1 p.2

theorem mem_places {e : Extent} {ts : List Triangle} {i : Nat} :
    i ∈ e.places ts ↔ ∃ t ∈ ts, ∃ p ∈ e.covered t, e.index p.1 p.2 = i := by
  simp only [places, List.mem_flatMap, List.mem_map]

/-- Whether all pixels that triangles cover are pixels of the raster. -/
def ContainsCovered (e : Extent) (ts : List Triangle) : Prop := ∀ t ∈ ts, ∀ p ∈ e.covered t, e.Contains p

theorem LastInside.containsCovered {e : Extent} (hinside : e.LastInside) (hmemory : e.pixelCount < 2 ^ 63)
    (ts : List Triangle) : e.ContainsCovered ts :=
  fun _ _ _ hp => contains_of_mem_tried hmemory hinside (mem_tried_of_mem_covered hp)

theorem ContainsCovered.lt_pixelCount {e : Extent} {ts : List Triangle} (h : e.ContainsCovered ts) {i : Nat}
    (hi : i ∈ e.places ts) : i < e.pixelCount := by
  obtain ⟨t, ht, p, hp, rfl⟩ := mem_places.mp hi
  obtain ⟨hx, hy⟩ := h t ht p hp
  exact index_lt hx hy

theorem places_beyondFirstRow : ∀ height ∈ [1, 2],
    (Extent.mk 16777220 height).places [beyondFirstRow] = [16777219, 16777220] := by
  intro height hheight
  rw [places, List.flatMap_singleton, covered_beyondFirstRow height hheight]
  simp [index]

end Extent

/-! ## Marks -/

namespace Coverage

theorem size_mark (c : Coverage) (i : Nat) : (c.mark i).mask.size = c.mask.size := by
  unfold mark
  split
  · exact Array.size_setIfInBounds
  · rfl

theorem isMarked_mark (c : Coverage) (i : Nat) {j : Nat} (hj : j < c.mask.size) :
    (c.mark i).isMarked j = (c.isMarked j || i == j) := by
  unfold mark
  split
  · rename_i hi
    simp only [isMarked, Array.getD_eq_getD_getElem?, Array.getElem?_setIfInBounds]
    by_cases hij : i = j
    · simp [hij, hj]
    · simp [hij]
  · rename_i hi
    by_cases hij : i = j
    · -- A place of the raster that is not unmarked is marked.
      subst hij
      simp_all [isMarked, Array.getD_eq_getD_getElem?]
    · simp [hij]

/-- Marking a list of places marks these and keeps all marks. -/
theorem isMarked_foldl_mark (places : List Nat) (c : Coverage) {j : Nat} (hj : j < c.mask.size) :
    (places.foldl mark c).isMarked j = (c.isMarked j || places.contains j) := by
  induction places generalizing c with
  | nil => simp
  | cons i places ih =>
    have hsize : j < (c.mark i).mask.size := by rwa [size_mark]
    rw [List.foldl_cons, ih (c.mark i) hsize, isMarked_mark c i hj, List.contains_cons, Bool.or_assoc,
      BEq.comm]

theorem ofTriangles_eq_foldl_mark (e : Extent) (ts : List Triangle) :
    ofTriangles e ts = (e.places ts).foldl mark (empty e) := by
  rw [ofTriangles, Extent.places, List.foldl_flatMap]
  congr 1
  funext c t
  rw [cover, List.foldl_map]

theorem size_ofTriangles (e : Extent) (ts : List Triangle) :
    (ofTriangles e ts).mask.size = e.pixelCount := by
  have hfold : ∀ (places : List Nat) (c : Coverage), (places.foldl mark c).mask.size = c.mask.size := by
    intro places
    induction places with
    | nil => exact fun _ => rfl
    | cons i places ih => exact fun c => (ih (c.mark i)).trans (size_mark c i)
  rw [ofTriangles_eq_foldl_mark, hfold]
  exact Array.size_replicate

theorem isMarked_ofTriangles (e : Extent) (ts : List Triangle) {i : Nat} (hi : i < e.pixelCount) :
    (ofTriangles e ts).isMarked i = (e.places ts).contains i := by
  have hsize : i < (empty e).mask.size := by rwa [empty, Array.size_replicate]
  have hempty : (empty e).isMarked i = false := by
    simp [isMarked, empty, Array.getD_eq_getD_getElem?, hi]
  rw [ofTriangles_eq_foldl_mark, isMarked_foldl_mark _ _ hsize, hempty, Bool.false_or]

/-! ## Looking up places -/

/-- Marking a place does not change which places there are. -/
theorem foldlM_mark? (places : List Nat) (c : Coverage) :
    places.foldlM mark? c =
      if ∀ i ∈ places, i < c.mask.size then some (places.foldl mark c) else none := by
  induction places generalizing c with
  | nil => simp
  | cons i places ih =>
    rw [List.foldlM_cons, mark?]
    by_cases hi : i < c.mask.size
    · simp [hi, ih, size_mark]
    · simp [hi]

theorem foldlM_cover? (e : Extent) (ts : List Triangle) (c : Coverage) :
    ts.foldlM (cover? e) c = (e.places ts).foldlM mark? c := by
  induction ts generalizing c with
  | nil => rfl
  | cons t ts ih =>
    have hplaces : e.places (t :: ts) = (e.covered t).map (fun p => e.index p.1 p.2) ++ e.places ts := rfl
    rw [hplaces, List.foldlM_append, List.foldlM_map, List.foldlM_cons]
    exact congrArg _ (funext ih)

theorem ofTriangles?_eq (e : Extent) (ts : List Triangle) :
    ofTriangles? e ts =
      if ∀ i ∈ e.places ts, i < e.pixelCount then some (ofTriangles e ts) else none := by
  have hsize : (empty e).mask.size = e.pixelCount := Array.size_replicate
  rw [ofTriangles?, foldlM_cover?, foldlM_mark?, hsize, ofTriangles_eq_foldl_mark]

theorem ofTriangles?_of_containsCovered {e : Extent} {ts : List Triangle} (h : e.ContainsCovered ts) :
    ofTriangles? e ts = some (ofTriangles e ts) := by
  rw [ofTriangles?_eq, if_pos fun _ => h.lt_pixelCount]

theorem ofTriangles?_concat (e : Extent) (ts : List Triangle) (t : Triangle) :
    ofTriangles? e (ts ++ [t]) = (ofTriangles? e ts).bind fun c => cover? e c t := by
  rw [ofTriangles?, List.foldlM_append]
  exact congrArg _ (funext fun c => bind_pure (cover? e c t))

/-- The pixel behind the first row has the place of the first pixel of the second row. -/
theorem isMarked_beyondFirstRow :
    (ofTriangles ⟨16777220, 2⟩ [Extent.beyondFirstRow]).isMarked (Extent.index ⟨16777220, 2⟩ 0 1) := by
  rw [isMarked_ofTriangles _ _ (by decide), Extent.places_beyondFirstRow 2 (by decide)]
  decide

/-- If there is no second row, there is no place for it. -/
theorem ofTriangles?_beyondFirstRow : ofTriangles? ⟨16777220, 1⟩ [Extent.beyondFirstRow] = none := by
  rw [ofTriangles?_eq, Extent.places_beyondFirstRow 1 (by decide), if_neg (by decide)]

end Coverage

end VectorScene
