import VectorScene.Proofs.Canvas.Painting

/-!
# Pixels outside of the raster

A pixel that is tried outside of the raster has the place of another pixel, or none, and the lookup of its place
fails. Which pixels are tried depends on the triangle, but whether all of them are pixels of the raster
depends on its size alone, for any triangle and any corners (`Extent.contains_tried_iff`): the last column and
the last row must be computed as ones that it has. This is so up to 16777216 columns and rows, and for some sizes
beyond.
-/

namespace VectorScene

/-! ## Rasters that have all pixels that are tried -/

/-- Every pixel that is tried for a triangle, and every one that it covers, is a pixel of the raster if and only
if the last column and the last row are computed as ones of the raster, or it has no pixels. The place of each
pixel that is tried is then a place of the raster, and this pixel's own, and no list of triangles asks for a
place that there is not. -/
theorem Extent.contains_tried_iff (e : Extent) (hmemory : e.pixelCount < 2 ^ 63) :
    ((∀ t, ∀ p ∈ e.tried t, e.Contains p) ↔ e.LastInside) ∧
      ((∀ t, ∀ p ∈ e.covered t, e.Contains p) ↔ e.LastInside) ∧
      (e.LastInside →
        (∀ t, ∀ p ∈ e.tried t, e.index p.1 p.2 < e.pixelCount ∧
          e.index p.1 p.2 % e.width = p.1 ∧ e.index p.1 p.2 / e.width = p.2) ∧
        ∀ ts, Coverage.ofTriangles? e ts = some (.ofTriangles e ts)) := by
  have htried : e.LastInside → ∀ t, ∀ p ∈ e.tried t, e.Contains p :=
    fun hinside t p => contains_of_mem_tried hmemory hinside
  have hbeyond : (∀ t, ∀ p ∈ e.covered t, e.Contains p) → e.LastInside := by
    intro hcontains
    by_contra hnot
    obtain ⟨t, hcovered, hmissed⟩ := exists_covered_beyond hmemory hnot
    obtain ⟨p, hp⟩ := List.exists_mem_of_ne_nil _ hcovered
    exact hmissed p hp (hcontains t p hp)
  refine ⟨⟨fun h => hbeyond fun t p hp => h t p (mem_tried_of_mem_covered hp), htried⟩,
    ⟨hbeyond, fun h t p hp => htried h t p (mem_tried_of_mem_covered hp)⟩,
    fun hinside => ⟨fun t p hp => ?_, fun ts => ?_⟩⟩
  · obtain ⟨hx, hy⟩ := htried hinside t p hp
    exact ⟨index_lt hx hy, index_mod_div hx⟩
  · exact Coverage.ofTriangles?_of_containsCovered (hinside.containsCovered hmemory ts)

/-- The last of 16777218 columns is rounded down, and so it is one of them; the corners of a triangle may be NaN or
infinite. -/
theorem Extent.contains_tried_evenWide :
    let e : Extent := ⟨16777218, 2⟩
    let t : Triangle := ⟨⟨0 / 0, -1⟩, ⟨16777215, 0⟩, ⟨1 / 0, 1 / 0⟩⟩
    (16777216, 1) ∈ e.tried t ∧ (∀ t, ∀ p ∈ e.tried t, e.Contains p) ∧
      ∀ ts, Coverage.ofTriangles? e ts = some (.ofTriangles e ts) := by
  intro e t
  have hinside : e.LastInside := .inr (by decide)
  obtain ⟨htried, -, hmask⟩ := contains_tried_iff e (by decide)
  exact ⟨mem_tried.mpr (by decide +kernel), htried.mpr hinside, (hmask hinside).2⟩

/-- The last of 16777220 columns is computed as the one behind it. A triangle that lies in the first row then
paints the first pixel of the second row, and there is no place for it if there is no second row. -/
theorem Canvas.composite_beyond :
    let c := Canvas.new 16777220 2
    let t : Triangle := ⟨⟨16777199, 0⟩, ⟨16777240, 0⟩, ⟨16777240, 1⟩⟩
    (16777220, 0) ∈ c.tried t ∧ ¬ c.Contains (16777220, 0) ∧ c.index 16777220 0 = c.index 0 1 ∧
      (0, 1) ∉ c.tried t ∧ c.pixel 0 1 = some .clear ∧
      (c.composite .red (.ofTriangles c.toExtent [t])).pixel 0 1 = some .red ∧
      Coverage.ofTriangles? ⟨16777220, 1⟩ [t] = none := by
  intro c t
  have hclear : c.pixel 0 1 = some .clear := pixel_new (by decide) (by decide)
  refine ⟨?_, by decide, by decide, ?_, hclear, ?_, Coverage.ofTriangles?_beyondFirstRow⟩
  · rw [Extent.mem_tried]
    decide +kernel
  · rw [Extent.mem_tried]
    decide +kernel
  · have hmark : (Coverage.ofTriangles c.toExtent [t]).isMarked (c.index 0 1) :=
      Coverage.isMarked_beyondFirstRow
    rw [pixel_composite, hclear, hmark]
    decide +kernel

end VectorScene
