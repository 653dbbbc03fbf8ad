import AccessLatency.Plot.Drawing
import AccessLatency.Proofs.Chart.Finite
import AccessLatency.Proofs.Chart.Layout
import AccessLatency.Proofs.Text.Decode
import Mathlib.Tactic

/-!
# Outlines

The texts of an outline can be read back, whatever they hold. An outline that is not broken off is
the drawing of the whole chart in some layout; that of a chart with finite ranges and a short legend
is not broken off if the sides of the image are positions.
-/

set_option autoImplicit false

namespace AccessLatency

namespace Xml

/-- The codes of special characters, with the characters that they stand for. -/
def codes : List (List Char × Char) :=
  names.map fun entry => ('&' :: (entry.2.toList ++ [';']), entry.1)

/-- The text that an escaped text stands for. -/
def unescape (s : String) : List Char := Text.decode codes s.toList

/-- No code of a character is the beginning of another. -/
theorem prefixFree_codes : Text.PrefixFree codes := by decide

/-- The codes stand for the characters that they are written for. -/
theorem undoes_escapeChar : Text.Undoes codes escapeChar := by
  intro c rest
  unfold escapeChar
  cases found : names.lookup c with
  | none =>
    left
    have first : ∀ e ∈ codes, e.1.head? = some '&' := by decide
    refine ⟨rfl, Text.codeAt?_of_ne first ?_ rest⟩
    rintro rfl
    cases found
  | some name =>
    right
    obtain ⟨front, back, entries, -⟩ := List.lookup_eq_some_iff.1 found
    have member : (c, name) ∈ names := by
      rw [entries]
      simp
    refine ⟨List.cons_ne_nil _ _, ?_⟩
    exact Text.codeAt?_of_mem prefixFree_codes (List.mem_map_of_mem member) rest

/-- Escaping can be undone. -/
theorem unescape_escape (s : String) : unescape (escape s) = s.toList := by
  unfold unescape escape
  rw [String.toList_ofList]
  exact Text.decode_flatMap undoes_escapeChar s.toList

end Xml

namespace Chart

variable {chart : Chart} {plan : ChartPlan}

/-- An outline that is not broken off is the drawing of the whole chart. -/
theorem exists_layout_of_outline {drawing : SvgOutline} (h : chart.outline plan = (drawing, none)) :
    ∃ layout, drawing = SvgOutline.ofChart chart plan layout := by
  unfold outline at h
  cases sized : ChartLayout.ofSize plan.width plan.height with
  | error fault =>
    rw [sized] at h
    cases h
  | ok layout =>
    rw [sized] at h
    dsimp only at h
    split at h
    · cases h
    · cases fault : layout.legendFault? chart.legendLines with
      | some fault =>
        rw [fault] at h
        cases h
      | none =>
        rw [fault] at h
        exact ⟨layout, (congrArg Prod.fst h).symm⟩

/-- The ends of a range can be marked if they are finite. -/
theorem cannotMark_of_isFinite {range : Range} (h : range.IsFinite) (scale : AxisScale) :
    cannotMark scale range = false := by
  have number : range.lower.isNaN = false := by
    have lower := h.1
    revert lower
    cases range.lower <;> simp [Binary64.isFinite, Binary64.isNaN]
  simp [cannotMark, lacksBounds, number]

/-- The drawing of a chart with finite ranges and a short legend is not broken off, if the sides of
the image are positions. -/
theorem outline_eq (hw : plan.width.toNat < 2 ^ 31) (hh : plan.height.toNat < 2 ^ 31)
    (xFinite : chart.xRange.IsFinite) (yFinite : chart.yRange.IsFinite)
    (few : chart.legendLines ≤ 6) :
    chart.outline plan =
      (SvgOutline.ofChart chart plan (ChartLayout.ofSides plan.width.toNat plan.height.toNat),
        none) := by
  have marked : chart.cannotDraw plan = false := by
    unfold cannotDraw
    rw [cannotMark_of_isFinite xFinite, cannotMark_of_isFinite yFinite]
    rfl
  unfold outline
  rw [ChartLayout.ofSize_eq_ok hw hh]
  dsimp only
  rw [marked, ChartLayout.legendFault?_eq_none hh few]
  rfl

end Chart

end AccessLatency
