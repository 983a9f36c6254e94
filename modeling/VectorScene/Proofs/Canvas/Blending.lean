import Mathlib.Data.Finset.Card
import VectorScene.Proofs.Canvas.Painting

/-!
# One blend for each covered pixel

A coverage counts its marks: its number is that of the places which are marked (`Coverage.Counted`), and a
mark that is made keeps this. So whatever triangles are covered, in whatever order and however often, the
number is that of the distinct places they are found at (`Coverage.count_eq`), and a coverage depends on the set
of its triangles only (`Coverage.ofTriangles_congr`).

Where all pixels that triangles cover are pixels of the raster, these places are those of the covered pixels,
each its own, and compositing blends every covered pixel once and no other (`Canvas.BlendedOnce`). This holds
for all triangles if and only if the last column and row are computed as ones of the raster
(`Canvas.composite_once_iff`).
-/

namespace VectorScene

/-! ## Pixels that are covered -/

namespace Extent

variable {e : Extent} {ts : List Triangle} {x y : Nat}

/-- Whether one of the triangles covers a pixel. -/
def Covers (e : Extent) (ts : List Triangle) (x y : Nat) : Prop := ∃ t ∈ ts, (x, y) ∈ e.covered t

instance (e : Extent) (ts : List Triangle) (x y : Nat) : Decidable (e.Covers ts x y) :=
  inferInstanceAs (Decidable (∃ t ∈ ts, _))

/-- The pixels of a raster, as pairs of column and row, that some triangle covers. -/
def coveredPixels (e : Extent) (ts : List Triangle) : Finset (Nat × Nat) :=
  (ts.flatMap e.covered).toFinset.filter e.Contains

theorem mem_coveredPixels {p : Nat × Nat} :
    p ∈ e.coveredPixels ts ↔ e.Covers ts p.1 p.2 ∧ e.Contains p := by
  rw [coveredPixels, Finset.mem_filter, List.mem_toFinset, List.mem_flatMap]
  rfl

theorem coveredPixels_append (before after : List Triangle) :
    e.coveredPixels (before ++ after) =
      e.coveredPixels before ∪ (e.coveredPixels after \ e.coveredPixels before) := by
  rw [coveredPixels, List.flatMap_append, List.toFinset_append, Finset.filter_union, Finset.union_sdiff_self_eq_union]
  rfl

theorem mem_places_congr {us : List Triangle} (h : ∀ t, t ∈ us ↔ t ∈ ts) (i : Nat) :
    i ∈ e.places us ↔ i ∈ e.places ts := by
  simp only [mem_places, h]

/-- Where all pixels that triangles cover are pixels of the raster, a place is found for its own pixel. -/
theorem ContainsCovered.index_mem_places_iff (h : e.ContainsCovered ts) (hx : x < e.width) :
    e.index x y ∈ e.places ts ↔ e.Covers ts x y := by
  rw [mem_places]
  refine exists_congr fun t => and_congr_right fun ht => ⟨?_, fun hcovered => ⟨(x, y), hcovered, rfl⟩⟩
  rintro ⟨p, hp, hindex⟩
  obtain ⟨hcolumn, hrow⟩ := index_inj (h t ht p hp).1 hx hindex
  rw [← hcolumn, ← hrow]
  exact hp

/-- Covered pixels and their places are equally many. -/
theorem ContainsCovered.card_coveredPixels (h : e.ContainsCovered ts) :
    (e.coveredPixels ts).card = ((e.places ts).toFinset.filter (· < e.pixelCount)).card := by
  have hplaces : (e.coveredPixels ts).image (fun p => e.index p.1 p.2) =
      (e.places ts).toFinset.filter (· < e.pixelCount) := by
    ext i
    rw [Finset.mem_image, Finset.mem_filter, List.mem_toFinset]
    constructor
    · rintro ⟨p, hp, rfl⟩
      obtain ⟨hcovers, hx, hy⟩ := mem_coveredPixels.mp hp
      exact ⟨(h.index_mem_places_iff hx).mpr hcovers, index_lt hx hy⟩
    · rintro ⟨hi, -⟩
      obtain ⟨t, ht, p, hp, hindex⟩ := mem_places.mp hi
      exact ⟨p, mem_coveredPixels.mpr ⟨⟨t, ht, hp⟩, h t ht p hp⟩, hindex⟩
  rw [← hplaces, Finset.card_image_of_injOn]
  intro p hp q hq hindex
  have hequal := index_inj (mem_coveredPixels.mp hp).2.1 (mem_coveredPixels.mp hq).2.1 hindex
  exact Prod.ext hequal.1 hequal.2

end Extent

/-! ## Counting marks -/

namespace Coverage

variable {c : Coverage}

/-- The places that are marked. -/
def marks (c : Coverage) : Finset Nat := (Finset.range c.mask.size).filter fun i => c.isMarked i

/-- Whether the number of a coverage is that of its marks. -/
def Counted (c : Coverage) : Prop := c.count = c.marks.card

theorem mem_marks {i : Nat} : i ∈ c.marks ↔ i < c.mask.size ∧ c.isMarked i := by
  rw [marks, Finset.mem_filter, Finset.mem_range]

theorem Counted.empty (e : Extent) : (empty e).Counted := by
  show 0 = (Coverage.empty e).marks.card
  refine (Finset.card_eq_zero.mpr (Finset.eq_empty_iff_forall_notMem.mpr fun i hi => ?_)).symm
  obtain ⟨hsize, hmarked⟩ := mem_marks.mp hi
  simp_all [Coverage.empty, isMarked, Array.getD_eq_getD_getElem?]

/-- A place is counted when it is marked, and not again. -/
theorem Counted.mark (h : c.Counted) (i : Nat) : (c.mark i).Counted := by
  by_cases hfree : c.mask[i]? = some false
  · have hi : i < c.mask.size := (Array.getElem?_eq_some_iff.mp hfree).1
    have hnew : i ∉ c.marks := fun hmem => by
      have hmarked := (mem_marks.mp hmem).2
      rw [isMarked, Array.getD_eq_getD_getElem?, hfree] at hmarked
      cases hmarked
    have hmarks : (c.mark i).marks = insert i c.marks := by
      ext j
      rw [mem_marks, size_mark, Finset.mem_insert, mem_marks]
      constructor
      · rintro ⟨hj, hmarked⟩
        rw [isMarked_mark c i hj, Bool.or_eq_true, beq_iff_eq] at hmarked
        exact hmarked.symm.imp Eq.symm fun h => ⟨hj, h⟩
      · rintro (rfl | ⟨hj, hmarked⟩)
        · exact ⟨hi, by rw [isMarked_mark c j hi, beq_self_eq_true, Bool.or_true]⟩
        · exact ⟨hj, by rw [isMarked_mark c i hj, hmarked, Bool.true_or]⟩
    have hcount : (c.mark i).count = c.count + 1 := by rw [Coverage.mark, if_pos hfree]
    rw [Counted, hcount, hmarks, Finset.card_insert_of_notMem hnew, h]
  · rwa [Coverage.mark, if_neg hfree]

theorem Counted.foldl_mark (h : c.Counted) (places : List Nat) : (places.foldl Coverage.mark c).Counted := by
  induction places generalizing c with
  | nil => exact h
  | cons i places ih => exact ih (h.mark i)

theorem counted_ofTriangles (e : Extent) (ts : List Triangle) : (ofTriangles e ts).Counted := by
  rw [ofTriangles_eq_foldl_mark]
  exact (Counted.empty e).foldl_mark _

theorem marks_ofTriangles (e : Extent) (ts : List Triangle) :
    (ofTriangles e ts).marks = (e.places ts).toFinset.filter (· < e.pixelCount) := by
  ext i
  rw [mem_marks, size_ofTriangles, Finset.mem_filter, List.mem_toFinset, and_comm]
  refine and_congr_left fun hi => ?_
  rw [isMarked_ofTriangles e ts hi, List.contains_iff_mem]

/-- The number of a coverage is that of the distinct places that are found. -/
theorem count_eq (e : Extent) (ts : List Triangle) :
    (ofTriangles e ts).count = ((e.places ts).toFinset.filter (· < e.pixelCount)).card := by
  rw [counted_ofTriangles e ts, marks_ofTriangles]

theorem count_ofTriangles {e : Extent} {ts : List Triangle} (h : e.ContainsCovered ts) :
    (ofTriangles e ts).count = (e.coveredPixels ts).card := by
  rw [count_eq, h.card_coveredPixels]

/-- One more triangle adds the pixels that it covers and none before it does. -/
theorem exists_cover? {e : Extent} {ts : List Triangle} {t : Triangle} (h : e.ContainsCovered (ts ++ [t]))
    {c : Coverage} (hc : ofTriangles? e ts = some c) :
    ∃ next, cover? e c t = some next ∧
      next.count = c.count + (e.coveredPixels [t] \ e.coveredPixels ts).card := by
  have hbefore : e.ContainsCovered ts := fun u hu => h u (List.mem_append_left [t] hu)
  refine ⟨ofTriangles e (ts ++ [t]), ?_, ?_⟩
  · have hconcat := ofTriangles?_concat e ts t
    rw [hc, ofTriangles?_of_containsCovered h] at hconcat
    exact hconcat.symm
  · rw [ofTriangles?_of_containsCovered hbefore] at hc
    cases hc
    rw [count_ofTriangles h, count_ofTriangles hbefore, Extent.coveredPixels_append,
      Finset.card_union_of_disjoint Finset.disjoint_sdiff]

/-- A coverage is known by the set of its triangles. -/
theorem ofTriangles_congr {e : Extent} {ts us : List Triangle} (h : ∀ t, t ∈ us ↔ t ∈ ts) :
    ofTriangles e us = ofTriangles e ts := by
  have hplaces := Extent.mem_places_congr (e := e) h
  have hmask : (ofTriangles e us).mask = (ofTriangles e ts).mask := by
    refine Array.ext (by rw [size_ofTriangles, size_ofTriangles]) fun i hus hts => ?_
    have hi : i < e.pixelCount := by rwa [← size_ofTriangles e us]
    have hmarked : (ofTriangles e us).isMarked i = (ofTriangles e ts).isMarked i := by
      rw [isMarked_ofTriangles e us hi, isMarked_ofTriangles e ts hi, Bool.eq_iff_iff,
        List.contains_iff_mem, List.contains_iff_mem, hplaces]
    simpa [isMarked, Array.getD_eq_getD_getElem?, hus, hts] using hmarked
  have hcount : (ofTriangles e us).count = (ofTriangles e ts).count := by
    have hset : (e.places us).toFinset = (e.places ts).toFinset :=
      Finset.ext fun i => by rw [List.mem_toFinset, List.mem_toFinset, hplaces]
    rw [count_eq, count_eq, hset]
  calc ofTriangles e us = ⟨(ofTriangles e us).mask, (ofTriangles e us).count⟩ := rfl
    _ = ofTriangles e ts := by rw [hmask, hcount]

/-- Lookups, too, depend on the set of the triangles only. -/
theorem ofTriangles?_congr {e : Extent} {ts us : List Triangle} (h : ∀ t, t ∈ us ↔ t ∈ ts) :
    ofTriangles? e us = ofTriangles? e ts := by
  simp only [ofTriangles?_eq, Extent.mem_places_congr h, ofTriangles_congr h]

end Coverage

/-! ## Compositing -/

namespace Canvas

/-- What is to be left of a canvas and told of it when a color is composited over what triangles cover: every
pixel that one of them covers is replaced by one blend, however many do, and all others are left, and the number
that is told is that of the distinct pixels that are covered. -/
structure BlendedOnce (c : Canvas) (color : Color) (ts : List Triangle) (painted : Canvas) (count : Nat) :
    Prop where
  frame : c.SameFrame painted
  pixel (x y : Nat) : x < c.width → y < c.height → ∃ old, c.pixel x y = some old ∧
    painted.pixel x y = some (if c.toExtent.Covers ts x y then color.onto old else old)
  count : count = (c.toExtent.coveredPixels ts).card

variable {c : Canvas} {color : Color} {ts : List Triangle}

theorem compositeTriangles?_of_containsCovered (h : c.toExtent.ContainsCovered ts) (color : Color) :
    c.compositeTriangles? color ts = some (c.composite color (.ofTriangles c.toExtent ts),
      (Coverage.ofTriangles c.toExtent ts).count) := by
  rw [compositeTriangles?, Coverage.ofTriangles?_of_containsCovered h]
  rfl

theorem of_compositeTriangles? {painted : Canvas} {count : Nat}
    (h : c.compositeTriangles? color ts = some (painted, count)) :
    (∀ i ∈ c.toExtent.places ts, i < c.toExtent.pixelCount) ∧
      painted = c.composite color (.ofTriangles c.toExtent ts) ∧
      count = (Coverage.ofTriangles c.toExtent ts).count := by
  rw [compositeTriangles?, Coverage.ofTriangles?_eq] at h
  split at h
  · rename_i hplaces
    cases h
    exact ⟨hplaces, rfl, rfl⟩
  · cases h

theorem blendedOnce_composite (h : c.toExtent.ContainsCovered ts) (color : Color) :
    c.BlendedOnce color ts (c.composite color (.ofTriangles c.toExtent ts))
      (Coverage.ofTriangles c.toExtent ts).count where
  frame := .of_toExtent rfl rfl
  count := Coverage.count_ofTriangles h
  pixel x y hx hy := by
    obtain ⟨old, hold⟩ := exists_pixel hx hy
    refine ⟨old, hold, ?_⟩
    rw [pixel_composite, hold, Coverage.isMarked_ofTriangles _ _ (Extent.index_lt hx hy)]
    simp only [Option.map_some, List.contains_iff_mem, h.index_mem_places_iff hx]

/-- Triangles that cover some pixel, but none of the raster, are counted all the same. -/
theorem not_blendedOnce {painted : Canvas} {count : Nat} {t : Triangle} (hcovered : c.toExtent.covered t ≠ [])
    (hmissed : ∀ p ∈ c.toExtent.covered t, ¬ c.toExtent.Contains p)
    (hpainted : c.compositeTriangles? color [t] = some (painted, count)) :
    ¬ c.BlendedOnce color [t] painted count := by
  intro hblended
  obtain ⟨hplaces, -, rfl⟩ := of_compositeTriangles? hpainted
  have hnone : c.toExtent.coveredPixels [t] = ∅ := by
    refine Finset.eq_empty_of_forall_notMem fun p hp => ?_
    obtain ⟨⟨u, hu, hmem⟩, hcontains⟩ := Extent.mem_coveredPixels.mp hp
    cases List.mem_singleton.mp hu
    exact hmissed p hmem hcontains
  obtain ⟨p, hp⟩ := List.exists_mem_of_ne_nil _ hcovered
  have hplace : c.toExtent.index p.1 p.2 ∈ c.toExtent.places [t] :=
    Extent.mem_places.mpr ⟨t, List.mem_singleton_self t, p, hp, rfl⟩
  have hcount := hblended.count
  rw [hnone, Finset.card_empty, Coverage.count_eq, Finset.card_eq_zero] at hcount
  refine Finset.eq_empty_iff_forall_notMem.mp hcount (c.toExtent.index p.1 p.2) ?_
  exact Finset.mem_filter.mpr ⟨List.mem_toFinset.mpr hplace, hplaces _ hplace⟩

/-- Compositing a color over what triangles cover blends every covered pixel once and no other, and tells their
number, for all triangles if and only if the last column and the last row are computed as ones of the raster, or
it has no pixels. On any raster it does so for triangles that cover pixels of the raster only. Each triangle then
adds the pixels to the number that no earlier one covers. Triangles in another order, or repeated, give the same
canvas and the same number. What an operation paints, with any tessellator, is what is composited over the
triangles of its path, and the number that it reports is this number. -/
theorem composite_once_iff (c : Canvas) (color : Color) (hmemory : c.toExtent.pixelCount < 2 ^ 63) :
    ((∀ ts, ∃ painted count, c.compositeTriangles? color ts = some (painted, count) ∧
        c.BlendedOnce color ts painted count) ↔ c.toExtent.LastInside) ∧
    (∀ ts, c.toExtent.ContainsCovered ts → ∃ painted count,
      c.compositeTriangles? color ts = some (painted, count) ∧ c.BlendedOnce color ts painted count) ∧
    (∀ ts t coverage, c.toExtent.ContainsCovered (ts ++ [t]) →
      Coverage.ofTriangles? c.toExtent ts = some coverage →
      ∃ next, Coverage.cover? c.toExtent coverage t = some next ∧ next.count = coverage.count +
        (c.toExtent.coveredPixels [t] \ c.toExtent.coveredPixels ts).card) ∧
    (∀ ts us, (∀ t, t ∈ us ↔ t ∈ ts) →
      c.compositeTriangles? color us = c.compositeTriangles? color ts) ∧
    (∀ (t : Tessellator) (path : Path) (tool : Tool) ts painted count,
      t.triangles c.tolerance tool.width? path = .ok ts →
      c.compositeTriangles? tool.color ts = some (painted, count) →
      paintBy t tool path c = .ok () painted ∧
        messages t { tool, path } c = path.messages ++ [.covered ts.length count]) := by
  have hcontained : ∀ ts, c.toExtent.ContainsCovered ts → ∃ painted count,
      c.compositeTriangles? color ts = some (painted, count) ∧ c.BlendedOnce color ts painted count :=
    fun ts h => ⟨_, _, compositeTriangles?_of_containsCovered h color, blendedOnce_composite h color⟩
  refine ⟨⟨fun hall => ?_, fun hinside ts => hcontained ts (hinside.containsCovered hmemory ts)⟩, hcontained,
    fun ts t coverage h hc => Coverage.exists_cover? h hc, fun ts us hus => ?_,
    fun t path tool ts painted count hcut hpainted => ?_⟩
  · by_contra hbeyond
    obtain ⟨t, hcovered, hmissed⟩ := Extent.exists_covered_beyond hmemory hbeyond
    obtain ⟨painted, count, hpainted, hblended⟩ := hall [t]
    exact not_blendedOnce hcovered hmissed hpainted hblended
  · rw [compositeTriangles?, compositeTriangles?, Coverage.ofTriangles?_congr hus]
  · obtain ⟨-, rfl, rfl⟩ := of_compositeTriangles? hpainted
    have hcoverage : t.coverage c.toExtent c.tolerance tool.width? path =
        .ok (.ofTriangles c.toExtent ts) := by
      rw [Tessellator.coverage, hcut]
      rfl
    constructor
    · rw [paintBy, hcoverage]
    · rw [messages, hcut]

/-- Two triangles in a square of two by two pixels that share the pixels of its first row. -/
def leftHalf : Triangle := ⟨⟨0, 0⟩, ⟨2, 0⟩, ⟨0, 2⟩⟩

@[inherit_doc leftHalf]
def rightHalf : Triangle := ⟨⟨0, 0⟩, ⟨2, 0⟩, ⟨2, 2⟩⟩

theorem composite_overlapping :
    let c := (Canvas.new 2 2).clear .white
    let veil := Color.black.withAlpha 0.5
    ∃ painted, c.compositeTriangles? veil [leftHalf, rightHalf, leftHalf] = some (painted, 4) ∧
      painted.pixel 0 0 = some ⟨0.5, 0.5, 0.5, 1⟩ ∧
      c.compositeTriangles? veil [rightHalf, leftHalf] = some (painted, 4) := by
  intro c veil
  obtain ⟨hblend, -, -, hsame, -⟩ := composite_once_iff c veil (by decide)
  obtain ⟨painted, count, hpainted, hblended⟩ :=
    hblend.mpr (.inr (by decide)) [leftHalf, rightHalf, leftHalf]
  have hcount : count = 4 := hblended.count.trans (by decide +kernel)
  subst hcount
  have hwhite : c.pixel 0 0 = some .white := by decide +kernel
  obtain ⟨old, hold, hnew⟩ := hblended.pixel 0 0 (by decide) (by decide)
  cases hwhite.symm.trans hold
  have hmem : ∀ t, t ∈ [rightHalf, leftHalf] ↔ t ∈ [leftHalf, rightHalf, leftHalf] := fun t => by
    simp only [List.mem_cons, List.not_mem_nil, or_false]
    exact ⟨.inr, fun h => h.elim .inr id⟩
  exact ⟨painted, hpainted, hnew.trans (by decide +kernel), (hsame _ _ hmem).trans hpainted⟩

/-- Of 16777220 columns, the last one is computed as the one behind it. A triangle in the first row then blends
the first pixel of the second row, which it does not cover, and counts it: two pixels instead of one. If there is
no second row, there is no place for it. -/
theorem not_blendedOnce_beyondFirstRow :
    let c := Canvas.new 16777220 2
    let t := Extent.beyondFirstRow
    ¬ c.toExtent.Covers [t] 0 1 ∧ c.pixel 0 1 = some .clear ∧ (c.toExtent.coveredPixels [t]).card = 1 ∧
      ∃ painted, c.compositeTriangles? .red [t] = some (painted, 2) ∧ painted.pixel 0 1 = some .red ∧
        ¬ c.BlendedOnce .red [t] painted 2 ∧
        (Canvas.new 16777220 1).compositeTriangles? .red [t] = none := by
  intro c t
  have hcovered : c.toExtent.covered t = [(16777219, 0), (16777220, 0)] :=
    Extent.covered_beyondFirstRow 2 (by decide)
  have hplaces : c.toExtent.places [t] = [16777219, 16777220] := Extent.places_beyondFirstRow 2 (by decide)
  have hcovers : ¬ c.toExtent.Covers [t] 0 1 := by
    rintro ⟨u, hu, hmem⟩
    cases List.mem_singleton.mp hu
    rw [hcovered] at hmem
    exact absurd hmem (by decide)
  have hcard : (c.toExtent.coveredPixels [t]).card = 1 := by
    rw [Extent.coveredPixels, List.flatMap_singleton, hcovered]
    decide
  have hcount : (Coverage.ofTriangles c.toExtent [t]).count = 2 := by
    rw [Coverage.count_eq, hplaces]
    decide
  have hclear : c.pixel 0 1 = some .clear := pixel_new (by decide) (by decide)
  refine ⟨hcovers, hclear, hcard, c.composite .red (.ofTriangles c.toExtent [t]), ?_, ?_, ?_, ?_⟩
  · rw [compositeTriangles?, Coverage.ofTriangles?_eq, hplaces, if_pos (by decide), ← hcount]
    rfl
  · have hmark : (Coverage.ofTriangles c.toExtent [t]).isMarked (c.toExtent.index 0 1) :=
      Coverage.isMarked_beyondFirstRow
    rw [pixel_composite, hclear, hmark]
    decide +kernel
  · intro hblended
    have hnumber := hblended.count
    omega
  · have hrow : Coverage.ofTriangles? (Canvas.new 16777220 1).toExtent [t] = none :=
      Coverage.ofTriangles?_beyondFirstRow
    rw [compositeTriangles?, hrow, Option.map_none]

end Canvas

end VectorScene
