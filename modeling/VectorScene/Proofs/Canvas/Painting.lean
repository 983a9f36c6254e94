import VectorScene.Canvas.Basic
import VectorScene.Proofs.Canvas.Coverage
import VectorScene.Proofs.Surface.Drawing

/-!
# Painting on a canvas, pixel by pixel

Painting one drawable composites its color over the pixels that its path covers, and leaves all
others as they were (`pixel_paintedBy`). Which pixels those are (`Tessellator.covers`) depends on the
path, on the tool up to its color, and on the size and the tolerance of the canvas, which no operation
changes. So what a list of drawables leaves of a pixel can be told from this pixel alone: it is the
left fold of compositing over the drawables that cover it (`pixel_foldl_paintedBy`), and two drawables
that share no pixel can be painted in either order (`foldl_paintedBy_swap`).

A painting succeeds if every path is cut into triangles (`paint_result_iff`). One that fails has done
the same for the drawables that were offered, since an operation that fails changes nothing
(`Surface.Paints.eq_foldl_paintedBy`). `paint_pixelwise` puts this together.
-/

namespace VectorScene

/-- Whether a path covers the pixel at a column and a row: one of its triangles covers the place of
this pixel in the rows of the raster. A path that is not cut into triangles covers nothing. -/
def Tessellator.covers (t : Tessellator) (e : Extent) (tolerance : Float32) (width? : Option Float32)
    (path : Path) (x y : Nat) : Bool :=
  match t.triangles tolerance width? path with
  | .ok triangles => (e.places triangles).contains (e.index x y)
  | .error _ => false

namespace Canvas

/-! ## Pixels -/

theorem pixel_of_lt {c : Canvas} {x y : Nat} (hx : x < c.width) (hy : y < c.height) :
    c.pixel x y = c.pixels[c.index x y]? := if_pos ⟨hx, hy⟩

theorem pixel_eq_none {c : Canvas} {x y : Nat} (h : ¬(x < c.width ∧ y < c.height)) :
    c.pixel x y = none := if_neg h

theorem pixel_new {width height x y : Nat} (hx : x < width) (hy : y < height) :
    (Canvas.new width height).pixel x y = some .clear := by
  have hi : y * width + x < width * height := Extent.index_lt (e := ⟨width, height⟩) hx hy
  refine (pixel_of_lt (c := Canvas.new width height) hx hy).trans ?_
  exact Array.getElem?_replicate.trans (if_pos hi)

/-- Each column and row of the canvas has a pixel. -/
theorem exists_pixel {c : Canvas} {x y : Nat} (hx : x < c.width) (hy : y < c.height) :
    ∃ old, c.pixel x y = some old := by
  have hi : c.index x y < c.pixels.size := c.size_pixels ▸ Extent.index_lt hx hy
  exact ⟨c.pixels[c.index x y], (pixel_of_lt hx hy).trans (Array.getElem?_eq_getElem hi)⟩

/-- A canvas is known by its size, its tolerance and its pixels. -/
theorem ext_pixel {c d : Canvas} (hextent : c.toExtent = d.toExtent) (htolerance : c.tolerance = d.tolerance)
    (hpixel : ∀ x y, x < c.width → y < c.height → c.pixel x y = d.pixel x y) : c = d := by
  have hsize : c.pixels.size = d.pixels.size := by rw [c.size_pixels, d.size_pixels, hextent]
  have hpixels : c.pixels = d.pixels := by
    refine Array.ext_getElem? fun i => ?_
    by_cases hi : i < c.pixels.size
    · obtain ⟨x, y, hx, hy, rfl⟩ := Extent.exists_index (c.size_pixels ▸ hi)
      have hxy := hpixel x y hx hy
      rwa [pixel_of_lt hx hy, pixel_of_lt (hextent ▸ hx) (hextent ▸ hy), ← hextent] at hxy
    · rw [Array.getElem?_eq_none (by omega), Array.getElem?_eq_none (by omega)]
  cases c
  cases d
  simp_all

theorem pixel_composite (color : Color) (coverage : Coverage) (c : Canvas) (x y : Nat) :
    (c.composite color coverage).pixel x y = (c.pixel x y).map fun old =>
      if coverage.isMarked (c.index x y) then color.onto old else old := by
  by_cases h : x < c.width ∧ y < c.height
  · rw [pixel_of_lt h.1 h.2]
    exact (pixel_of_lt (c := c.composite color coverage) h.1 h.2).trans Array.getElem?_mapIdx
  · rw [pixel_eq_none h, Option.map_none]
    exact pixel_eq_none (c := c.composite color coverage) h

/-! ## One drawable -/

/-- The canvas after a drawable is painted on it. -/
def paintedBy (t : Tessellator) (c : Canvas) (d : Drawable) : Canvas :=
  match t.triangles c.tolerance d.tool.width? d.path with
  | .ok triangles => c.composite d.tool.color (.ofTriangles c.toExtent triangles)
  | .error _ => c

theorem apply_surfaceBy (t : Tessellator) (c : Canvas) (d : Drawable) :
    (surfaceBy t).apply d c = outcomeAt (c.paintedBy t d)
      (((t.triangles c.tolerance d.tool.width? d.path).map fun _ => ()).mapError
        TessellationError.message) := by
  have hpaint : paintBy t d.tool d.path c = outcomeAt (c.paintedBy t d)
      ((t.triangles c.tolerance d.tool.width? d.path).map fun _ => ()) := by
    unfold paintBy paintedBy Tessellator.coverage
    cases t.triangles c.tolerance d.tool.width? d.path <;> rfl
  have happly : (surfaceBy t).apply d =
      (paintBy t d.tool d.path).adaptExcept TessellationError.message := by
    unfold Surface.apply
    split <;> rename_i htool <;> rw [htool] <;> rfl
  rw [happly]
  exact adaptExcept_outcomeAt hpaint _

variable {t : Tessellator} {c : Canvas} {d : Drawable}

theorem eq_paintedBy_of_apply {c' : Canvas} {r : Except String Unit}
    (h : (surfaceBy t).apply d c = outcomeAt c' r) : c' = c.paintedBy t d := by
  rw [apply_surfaceBy t c d] at h
  exact (outcomeAt_inj h).1.symm

theorem paintedBy_of_error {e : TessellationError}
    (h : t.triangles c.tolerance d.tool.width? d.path = .error e) : c.paintedBy t d = c := by
  rw [paintedBy, h]

theorem apply_of_ok {triangles : List Triangle}
    (h : t.triangles c.tolerance d.tool.width? d.path = .ok triangles) :
    (surfaceBy t).apply d c = .ok () (c.paintedBy t d) := by
  rw [apply_surfaceBy, h]
  rfl

theorem apply_of_error {e : TessellationError}
    (h : t.triangles c.tolerance d.tool.width? d.path = .error e) :
    (surfaceBy t).apply d c = .error e.message c := by
  rw [apply_surfaceBy, h, paintedBy_of_error h]
  rfl

/-- A drawable that is refused leaves the canvas as it was. -/
theorem eq_of_apply_error {report : String} {c' : Canvas}
    (h : (surfaceBy t).apply d c = .error report c') : c' = c := by
  cases hcut : t.triangles c.tolerance d.tool.width? d.path with
  | ok triangles =>
    rw [apply_of_ok hcut] at h
    cases h
  | error e =>
    rw [apply_of_error hcut] at h
    cases h
    rfl

theorem toExtent_paintedBy (t : Tessellator) (c : Canvas) (d : Drawable) :
    (c.paintedBy t d).toExtent = c.toExtent := by
  unfold paintedBy
  split <;> rfl

theorem tolerance_paintedBy (t : Tessellator) (c : Canvas) (d : Drawable) :
    (c.paintedBy t d).tolerance = c.tolerance := by
  unfold paintedBy
  split <;> rfl

/-- Whether a drawable covers a pixel of the canvas; its color has no part in it. -/
def coveredBy (t : Tessellator) (c : Canvas) (x y : Nat) (d : Drawable) : Bool :=
  t.covers c.toExtent c.tolerance d.tool.width? d.path x y

theorem coveredBy_paintedBy (t : Tessellator) (c : Canvas) (x y : Nat) (d : Drawable) :
    (c.paintedBy t d).coveredBy t x y = c.coveredBy t x y := by
  funext other
  rw [coveredBy, coveredBy, toExtent_paintedBy, tolerance_paintedBy]

theorem pixel_paintedBy (t : Tessellator) (c : Canvas) (d : Drawable) (x y : Nat) :
    (c.paintedBy t d).pixel x y = (c.pixel x y).map fun old =>
      if c.coveredBy t x y d then d.tool.color.onto old else old := by
  by_cases h : x < c.width ∧ y < c.height
  · unfold paintedBy coveredBy Tessellator.covers
    split
    · rw [pixel_composite, Coverage.isMarked_ofTriangles _ _ (Extent.index_lt h.1 h.2)]
    · simp
  · rw [pixel_eq_none h, Option.map_none]
    exact pixel_eq_none (toExtent_paintedBy t c d ▸ h)

/-! ## Many drawables -/

theorem toExtent_foldl_paintedBy (t : Tessellator) (c : Canvas) (ds : List Drawable) :
    (ds.foldl (paintedBy t) c).toExtent = c.toExtent := by
  induction ds generalizing c with
  | nil => rfl
  | cons d ds ih => exact (ih _).trans (toExtent_paintedBy t c d)

theorem tolerance_foldl_paintedBy (t : Tessellator) (c : Canvas) (ds : List Drawable) :
    (ds.foldl (paintedBy t) c).tolerance = c.tolerance := by
  induction ds generalizing c with
  | nil => rfl
  | cons d ds ih => exact (ih _).trans (tolerance_paintedBy t c d)

/-- Only the drawables that cover a pixel have a part in its color. -/
theorem pixel_foldl_paintedBy (t : Tessellator) (c : Canvas) (ds : List Drawable) (x y : Nat) :
    (ds.foldl (paintedBy t) c).pixel x y = (c.pixel x y).map fun old =>
      (ds.filter (c.coveredBy t x y)).foldl (fun below d => d.tool.color.onto below) old := by
  induction ds generalizing c with
  | nil => simp
  | cons d ds ih =>
    rw [List.foldl_cons, ih, coveredBy_paintedBy, pixel_paintedBy, Option.map_map, List.filter_cons]
    congr 1
    funext old
    cases c.coveredBy t x y d <;> rfl

/-- Two drawables that share no pixel can be painted in either order. -/
theorem foldl_paintedBy_swap (before after : List Drawable) {d₁ d₂ : Drawable}
    (h : ∀ x y, x < c.width → y < c.height → ¬(c.coveredBy t x y d₁ ∧ c.coveredBy t x y d₂)) :
    (before ++ d₂ :: d₁ :: after).foldl (paintedBy t) c =
      (before ++ d₁ :: d₂ :: after).foldl (paintedBy t) c := by
  refine ext_pixel ?_ ?_ fun x y hx hy => ?_
  · rw [toExtent_foldl_paintedBy, toExtent_foldl_paintedBy]
  · rw [tolerance_foldl_paintedBy, tolerance_foldl_paintedBy]
  · rw [toExtent_foldl_paintedBy] at hx hy
    rw [pixel_foldl_paintedBy, pixel_foldl_paintedBy]
    -- At most one of the two is among the drawables that cover this pixel.
    have hxy := h x y hx hy
    cases h₁ : c.coveredBy t x y d₁ <;> cases h₂ : c.coveredBy t x y d₂ <;>
      simp_all

/-! ## Paintings -/

/-- All drawables are painted if the path of each one is cut into triangles. -/
theorem forM_surfaceBy_iff {ds : List Drawable} :
    (∃ final, forM ds (surfaceBy t).apply c = .ok () final) ↔
      ∀ d ∈ ds, ∃ triangles, t.triangles c.tolerance d.tool.width? d.path = .ok triangles := by
  induction ds generalizing c with
  | nil => exact ⟨fun _ => List.forall_mem_nil _, fun _ => ⟨c, rfl⟩⟩
  | cons d ds ih =>
    rw [List.forall_mem_cons]
    cases hd : t.triangles c.tolerance d.tool.width? d.path with
    | ok triangles =>
      rw [forM_cons_of_ok ds (apply_of_ok hd), ih, tolerance_paintedBy]
      exact ⟨fun h => ⟨⟨triangles, rfl⟩, h⟩, fun h => h.2⟩
    | error e =>
      rw [forM_cons_of_error ds (apply_of_error hd)]
      exact ⟨nofun, nofun⟩

theorem eq_foldl_of_forM {ds : List Drawable} {final : Canvas}
    (h : forM ds (surfaceBy t).apply c = .ok () final) : final = ds.foldl (paintedBy t) c := by
  induction ds generalizing c with
  | nil => cases h; rfl
  | cons d ds ih =>
    obtain ⟨next, hd, hds⟩ := exists_of_forM_cons h
    rw [ih hds, List.foldl_cons, eq_paintedBy_of_apply (r := .ok ()) hd]

end Canvas

open Canvas in
/-- The canvas at the end of a painting is the one with all drawables painted that were offered. -/
theorem Surface.Paints.eq_foldl_paintedBy {t : Tessellator} {ds offered : List Drawable}
    {c final : Canvas} {outcome : Except String Unit}
    (h : (surfaceBy t).Paints ds c offered outcome final) : final = offered.foldl (paintedBy t) c := by
  cases h with
  | all h => exact eq_foldl_of_forM h
  | @refused before after d middle _ report hds hbefore hd =>
    rw [List.foldl_append, ← eq_foldl_of_forM hbefore]
    exact eq_paintedBy_of_apply (r := .error report) hd

namespace Canvas

variable {t : Tessellator} {c : Canvas} {ds : List Drawable}

/-- Every painting leaves the canvas with the first few drawables painted. -/
theorem exists_paint_state (t : Tessellator) (ds : List Drawable) (c : Canvas) :
    ∃ offered : List Drawable, (paint (surfaceBy t) ds c).state = offered.foldl (paintedBy t) c := by
  obtain ⟨offered, outcome, final, h⟩ := (surfaceBy t).exists_paints ds c
  exact ⟨offered, h.paint.2.trans h.eq_foldl_paintedBy⟩

theorem paint_result_iff : (paint (surfaceBy t) ds c).result = .ok () ↔
    ∀ d ∈ ds, ∃ triangles, t.triangles c.tolerance d.tool.width? d.path = .ok triangles := by
  obtain ⟨offered, outcome, final, h⟩ := (surfaceBy t).exists_paints ds c
  rw [← forM_surfaceBy_iff, ← h.ok_iff, h.paint.1]
  cases outcome with
  | ok _ => exact ⟨fun _ => rfl, fun _ => rfl⟩
  | error report => exact ⟨nofun, nofun⟩

theorem paint_state_of_ok (h : (paint (surfaceBy t) ds c).result = .ok ()) :
    (paint (surfaceBy t) ds c).state = ds.foldl (paintedBy t) c := by
  obtain ⟨final, hds⟩ := forM_surfaceBy_iff.mpr (paint_result_iff.mp h)
  have hpaints : (surfaceBy t).Paints ds c ds (.ok ()) final := .all hds
  exact hpaints.paint.2.trans hpaints.eq_foldl_paintedBy

/-- Two canvases of one size and tolerance, and with the same number of pixels. -/
structure SameFrame (c c' : Canvas) : Prop where
  width : c'.width = c.width
  height : c'.height = c.height
  tolerance : c'.tolerance = c.tolerance
  size : c'.pixels.size = c.pixels.size

theorem SameFrame.of_toExtent {c c' : Canvas} (hextent : c'.toExtent = c.toExtent)
    (htolerance : c'.tolerance = c.tolerance) : c.SameFrame c' where
  width := congrArg Extent.width hextent
  height := congrArg Extent.height hextent
  tolerance := htolerance
  size := by rw [c'.size_pixels, c.size_pixels, hextent]

/-- A painting succeeds if the path of each drawable is cut into triangles. It then leaves each pixel
with the colors of the drawables that cover it, composited in order over its old color, and leaves the
same canvas if two neighboring drawables that share no pixel are swapped. An operation that fails
leaves the canvas as it was. No operation and no painting changes the width, the height, the tolerance
or the number of pixels. -/
theorem paint_pixelwise (t : Tessellator) (ds : List Drawable) (c : Canvas) :
    let painting := paint (surfaceBy t) ds c
    let covers (d : Drawable) (x y : Nat) : Bool :=
      t.covers c.toExtent c.tolerance d.tool.width? d.path x y
    (painting.result = .ok () ↔
      ∀ d ∈ ds, ∃ triangles, t.triangles c.tolerance d.tool.width? d.path = .ok triangles) ∧
    (painting.result = .ok () →
      (∀ x y, x < c.width → y < c.height → ∃ old, c.pixel x y = some old ∧
        painting.state.pixel x y = some
          ((ds.filter fun d => covers d x y).foldl (fun below d => d.tool.color.onto below) old)) ∧
      ∀ before d₁ d₂ after, ds = before ++ d₁ :: d₂ :: after →
        (∀ x y, x < c.width → y < c.height → ¬(covers d₁ x y ∧ covers d₂ x y)) →
        let swapped := paint (surfaceBy t) (before ++ d₂ :: d₁ :: after) c
        swapped.result = .ok () ∧ swapped.state = painting.state) ∧
    (∀ d report c', (surfaceBy t).apply d c = .error report c' → c' = c) ∧
    (∀ d c' outcome, (surfaceBy t).apply d c = outcomeAt c' outcome → c.SameFrame c') ∧
    (∀ color, c.SameFrame (c.clear color)) ∧ c.SameFrame painting.state := by
  intro painting covers
  refine ⟨paint_result_iff,
    fun hok => ⟨fun x y hx hy => ?_, fun before d₁ d₂ after hds hdisjoint => ?_⟩,
    fun _ _ _ => eq_of_apply_error, fun d c' outcome h => ?_, fun color => ?_, ?_⟩
  · obtain ⟨old, hold⟩ := exists_pixel hx hy
    refine ⟨old, hold, ?_⟩
    show (paint (surfaceBy t) ds c).state.pixel x y = _
    rw [paint_state_of_ok hok, pixel_foldl_paintedBy, hold]
    rfl
  · have hperm : (before ++ d₂ :: d₁ :: after).Perm ds :=
      hds ▸ (List.Perm.swap d₁ d₂ after).append_left before
    have hswapped : (paint (surfaceBy t) (before ++ d₂ :: d₁ :: after) c).result = .ok () :=
      paint_result_iff.mpr fun d hd => paint_result_iff.mp hok d (hperm.mem_iff.mp hd)
    refine ⟨hswapped, ?_⟩
    rw [paint_state_of_ok hswapped, foldl_paintedBy_swap before after hdisjoint, ← hds]
    exact (paint_state_of_ok hok).symm
  · rw [eq_paintedBy_of_apply h]
    exact .of_toExtent (toExtent_paintedBy t c d) (tolerance_paintedBy t c d)
  · exact .of_toExtent rfl rfl
  · obtain ⟨offered, hstate⟩ := exists_paint_state t ds c
    show c.SameFrame (paint (surfaceBy t) ds c).state
    rw [hstate]
    exact .of_toExtent (toExtent_foldl_paintedBy t c offered) (tolerance_foldl_paintedBy t c offered)

/-- A stroke from a column to another one that is one row high. -/
def bar (color : Color) (left right : Float32) : Drawable where
  tool := .stroke color 1
  path := ⟨[.moveTo ⟨left, 0.5⟩, .draw (.line ⟨right, 0.5⟩)]⟩

/-- A translucent bar on two opaque ones that lie beside each other. -/
def veiled : List Drawable := [bar .red 0 1, bar .blue 1 2, bar (Color.black.withAlpha 0.5) 0 2]

theorem paint_veiled :
    let c := Canvas.new 2 1
    let painting := paint (surfaceBy .plain) veiled c
    let swapped := paint (surfaceBy .plain) (bar .blue 1 2 :: bar .red 0 1 :: veiled.drop 2) c
    let fill : Drawable := { tool := .fill .red, path := (bar .red 0 1).path }
    let blunt := c.withTolerance 0
    painting.result = .ok () ∧ painting.state.pixel 0 0 = some ⟨0.5, 0, 0, 1⟩ ∧
      painting.state.pixel 1 0 = some ⟨0, 0, 0.5, 1⟩ ∧ swapped.state = painting.state ∧
      c.SameFrame painting.state ∧
      ∃ report, (surfaceBy .plain).apply fill blunt = .error report blunt := by
  intro c painting swapped fill blunt
  obtain ⟨hsuccess, hpaint, -, -, -, hframe⟩ := paint_pixelwise .plain veiled c
  have hok : painting.result = .ok () :=
    hsuccess.mpr (by simp [veiled, bar, Tessellator.triangles, Tessellator.plain, Tool.width?])
  obtain ⟨hpixel, hswap⟩ := hpaint hok
  obtain ⟨old₀, hold₀, h₀⟩ := hpixel 0 0 (by decide) (by decide)
  obtain ⟨old₁, hold₁, h₁⟩ := hpixel 1 0 (by decide) (by decide)
  cases hold₀
  cases hold₁
  refine ⟨hok, h₀.trans (by decide +kernel), h₁.trans (by decide +kernel), ?_, hframe, ?_⟩
  · refine (hswap [] _ _ _ rfl ?_).2
    have hdisjoint : ∀ x < 2, ∀ y < 1,
        ¬(Tessellator.plain.covers ⟨2, 1⟩ curveTolerance (some 1) (bar .red 0 1).path x y ∧
          Tessellator.plain.covers ⟨2, 1⟩ curveTolerance (some 1) (bar .blue 1 2).path x y) := by
      decide +kernel
    exact fun x y hx hy => hdisjoint x hx y hy
  · have hevents : fill.path.events.isEmpty = false := rfl
    have hzero : ¬(0 : Float32) < 0 := by decide +kernel
    have hcut : Tessellator.plain.interior 0 fill.path = .error .invalidTolerance := by
      simp only [Tessellator.plain, hevents, hzero, Bool.false_eq_true, if_false]
    exact ⟨_, apply_of_error hcut⟩

end Canvas

end VectorScene
