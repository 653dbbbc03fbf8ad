import AccessLatency.Proofs.Binary64.Order
import AccessLatency.Proofs.Binary64.Within
import AccessLatency.Proofs.Chart.Drawable
import AccessLatency.Proofs.Chart.Extremes
import Mathlib.Tactic

/-!
# The room at the ends of an axis

An axis frames some numbers if its range holds all of them, is longer than one number, and begins
where the axis can represent a number. The range of finite numbers that the axis represents frames
them once it is given room, `frames_padded`. What room is for shows where there is only one number:
on a linear axis a part of a span of one at least, which is more than the gap around the number, and
on a logarithmic one a factor, which leads from the smallest number there is to the next.
-/

set_option autoImplicit false

namespace AccessLatency

/-- A finite positive number is a magnitude without a sign, and not zero. -/
theorem Binary64.exists_magnitude {v : Binary64} (finite : v.isFinite = true)
    (positive : v.IsPositive) : ∃ m : Magnitude, v = .finite false m ∧ 0 < m.quanta := by
  obtain ⟨s, m, rfl⟩ := exists_finite finite
  obtain ⟨q, value, pos⟩ := positive
  obtain rfl := Option.some.inj value
  cases s with
  | false => exact ⟨m, rfl, Int.natCast_pos.1 pos⟩
  | true =>
    simp only [signedQuanta, if_true] at pos
    omega

namespace Range

open Binary64

/-- A number lies on a range. -/
def Holds (r : Range) (v : Binary64) : Prop := le r.lower v = true ∧ le v r.upper = true

/-- A range with which an axis can show some numbers. -/
structure Frames (r : Range) (scale : AxisScale) (values : List Binary64) : Prop where
  increasing : lt r.lower r.upper = true
  represented : scale.Represents r.lower
  holds : ∀ v ∈ values, r.Holds v

/-- A range around another one that is longer than one number. -/
structure Widens (outer inner : Range) : Prop where
  increasing : lt outer.lower outer.upper = true
  lower : le outer.lower inner.lower = true
  upper : le inner.upper outer.upper = true

/-- The factor that makes room on a logarithmic axis is one and a half. -/
theorem exists_roomFactor :
    ∃ f : Magnitude, roomFactor = .finite false f ∧ 2 * f.quanta = 3 * unit :=
  ⟨⟨3 * 2 ^ 1073, by decide +kernel, by decide +kernel⟩, by decide +kernel, by decide +kernel⟩

/-- The factor that makes room is between one and two. -/
theorem within_roomFactor : Within 1074 1075 roomFactor :=
  ⟨⟨3 * 2 ^ 1073, by decide +kernel, by decide +kernel⟩, by decide +kernel, by decide +kernel,
    by decide +kernel⟩

/-- The part of a span that makes room is between one part in 32 and one part in 16. -/
theorem within_roomPart : Within 1069 1070 roomPart :=
  ⟨⟨roundQuotient (5 * unit) 100, fits_roundQuotient _ _, by decide +kernel⟩, by decide +kernel,
    by decide +kernel, by decide +kernel⟩

variable {r : Range} {scale : AxisScale}

/-! ## Linear axes -/

/-- The span of a range of one number is at least one, and no less than the number's magnitude. -/
theorem exists_span {s : Bool} {m : Magnitude} (lower : r.lower = .finite s m)
    (single : lt r.lower r.upper = false) :
    ∃ n : Magnitude, r.span = .finite false n ∧ unit ≤ n.quanta ∧ m.quanta ≤ n.quanta ∧
      (n.quanta = m.quanta ∨ n.quanta = unit) := by
  obtain ⟨one, hone, quanta⟩ : ∃ one : Magnitude, ofNat 1 = .finite false one ∧ one.quanta = unit :=
    ⟨⟨unit, by decide +kernel, by decide +kernel⟩, by decide +kernel, by decide +kernel⟩
  have span : r.span = if lt (.finite false m) (.finite false one) then .finite false one
      else .finite false m := by
    unfold Range.span
    rw [single, lower, hone]
    rfl
  have less : lt (.finite false m) (.finite false one) = decide (m.quanta < one.quanta) := by
    simp [lt, signedQuanta]
  rw [less, quanta] at span
  by_cases small : m.quanta < unit
  · rw [decide_eq_true small, if_pos rfl] at span
    exact ⟨one, span, quanta.ge, by omega, Or.inr quanta⟩
  · rw [decide_eq_false small, if_neg Bool.false_ne_true] at span
    exact ⟨m, span, not_lt.1 small, le_rfl, Or.inl rfl⟩

/-- The span of a range whose ends differ is their difference. -/
theorem span_of_lt (increasing : lt r.lower r.upper = true) : r.span = sub r.upper r.lower := by
  unfold Range.span
  rw [increasing, if_pos rfl]

/-- A span is not negative. -/
theorem zero_le_span (finite : r.IsFinite) : le (zero false) r.span = true := by
  obtain ⟨s, m, hl⟩ := exists_finite finite.1
  obtain ⟨t, n, hu⟩ := exists_finite finite.2
  cases increasing : lt r.lower r.upper with
  | true =>
    rw [span_of_lt increasing, hl, hu]
    rw [hl, hu, lt_iff] at increasing
    obtain ⟨p, q, hp, hq, less⟩ := increasing
    obtain rfl := Option.some.inj hp
    obtain rfl := Option.some.inj hq
    exact zero_le_iff.2 ⟨_, value?_sub t s n m, zero_le_rounded (by omega)⟩
  | false =>
    obtain ⟨k, span, -⟩ := exists_span hl increasing
    rw [span]
    exact zero_le_iff.2 ⟨_, rfl, Int.natCast_nonneg _⟩

/-- The room at each end of a linear axis. -/
def linearRoom (r : Range) : Binary64 := mul roomPart r.span

/-- The room on a linear axis is not negative. -/
theorem zero_le_linearRoom (finite : r.IsFinite) : le (zero false) r.linearRoom = true := by
  obtain ⟨part, hpart, least, -⟩ := within_roomPart
  unfold linearRoom
  rw [hpart]
  exact zero_le_mul ((Nat.two_pow_pos _).trans_le least) (zero_le_span finite)

/-- The room of one number is more than the gap around it. -/
theorem exists_linearRoom {s : Bool} {m : Magnitude} (lower : r.lower = .finite s m)
    (single : lt r.lower r.upper = false) :
    ∃ n : Magnitude, r.linearRoom = .finite false n ∧ 2 ^ gapExponent m.quanta ≤ n.quanta := by
  obtain ⟨n, span, one, more, -⟩ := exists_span lower single
  obtain ⟨e, he, unit_eq⟩ := unit_eq_two_pow
  have ne : n.quanta ≠ 0 := (unit_pos.trans_le one).ne'
  have least : e ≤ n.quanta.log2 := (Nat.le_log2 ne).2 (unit_eq ▸ one)
  have most : n.quanta.log2 < 2098 := log2_quanta_lt ne
  have within : Within n.quanta.log2 (n.quanta.log2 + 1) r.span :=
    ⟨n, span, pow_log2_le ne, (lt_pow_log2_succ n.quanta).le⟩
  obtain ⟨room, hroom, wide, -⟩ : Within (n.quanta.log2 - 5) (n.quanta.log2 - 3) r.linearRoom :=
    within_roomPart.mul within (by omega) (by omega) (by omega)
  refine ⟨room, hroom, ?_⟩
  calc 2 ^ gapExponent m.quanta ≤ 2 ^ gapExponent n.quanta :=
        Nat.pow_le_pow_right Nat.two_pos (gapExponent_mono more)
    _ ≤ 2 ^ (n.quanta.log2 - 5) := by
        apply Nat.pow_le_pow_right Nat.two_pos
        unfold gapExponent
        omega
    _ ≤ room.quanta := wide

/-- The room on a linear axis widens a range. -/
theorem padded_linear_widens (finite : r.IsFinite) (ordered : le r.lower r.upper = true) :
    (padded .linear r).Widens r := by
  have room := zero_le_linearRoom finite
  have lower : le (sub r.lower r.linearRoom) r.lower = true := sub_le finite.1 room
  have upper : le r.upper (add r.upper r.linearRoom) = true := le_add finite.2 room
  refine ⟨?_, lower, upper⟩
  show lt (sub r.lower r.linearRoom) (add r.upper r.linearRoom) = true
  cases increasing : lt r.lower r.upper with
  | true => exact Binary64.lt_of_le_of_lt lower (Binary64.lt_of_lt_of_le increasing upper)
  | false =>
    obtain ⟨s, m, hl⟩ := exists_finite finite.1
    obtain ⟨t, n, hu⟩ := exists_finite finite.2
    obtain ⟨k, hroom, wide⟩ := exists_linearRoom hl increasing
    have same : signedQuanta s m = signedQuanta t n := by
      rw [hl, hu] at ordered increasing
      simp only [le, lt, value?_finite, decide_eq_true_eq, decide_eq_false_iff_not] at *
      omega
    rcases lt_add_or_sub_lt s wide with above | below
    · have sum : lt r.lower (add r.upper r.linearRoom) = true := by
        rw [hl, hu, hroom]
        obtain ⟨p, q, hp, hq, less⟩ := lt_iff.1 above
        refine lt_iff.2 ⟨p, q, hp, ?_, less⟩
        rw [← hq, value?_add, value?_add, same]
      exact Binary64.lt_of_le_of_lt lower sum
    · rw [← hl, ← hroom] at below
      exact Binary64.lt_of_lt_of_le below (Binary64.le_trans ordered upper)

/-! ## Logarithmic axes -/

/-- The room on a logarithmic axis widens a range of positive numbers, and leaves its lower end
positive. -/
theorem padded_log_widens (finite : r.IsFinite) (ordered : le r.lower r.upper = true)
    (positive : r.lower.IsPositive) :
    (padded .log r).Widens r ∧ (padded .log r).lower.IsPositive := by
  obtain ⟨f, factor, half⟩ := exists_roomFactor
  have one := unit_pos
  obtain ⟨m, hl, mPos⟩ := exists_magnitude finite.1 positive
  obtain ⟨n, hu, nPos⟩ : ∃ n : Magnitude, r.upper = .finite false n ∧ 0 < n.quanta :=
    exists_magnitude finite.2
      (zero_lt_iff.1 (Binary64.lt_of_lt_of_le (zero_lt_iff.2 positive) ordered))
  have lower : le (div r.lower roomFactor) r.lower = true := by
    rw [hl, factor]
    exact div_le (by omega)
  have upper : lt r.upper (mul r.upper roomFactor) = true := by
    rw [hu, factor]
    exact lt_mul nPos half.ge
  refine ⟨⟨?_, lower, Binary64.le_of_lt upper⟩, ?_⟩
  · exact Binary64.lt_of_le_of_lt lower (Binary64.lt_of_le_of_lt ordered upper)
  · show (div r.lower roomFactor).IsPositive
    rw [← zero_lt_iff, hl, factor]
    exact zero_lt_div mPos (by omega) (by omega)

/-! ## Axes -/

/-- The range of finite numbers that an axis represents frames them once it has room. -/
theorem frames_padded {values : List Binary64} (h : ofValues? values = some r)
    (finite : ∀ v ∈ values, v.isFinite = true) (represented : ∀ v ∈ values, scale.Represents v) :
    (padded scale r).Frames scale values := by
  obtain ⟨lowerMem, upperMem, between⟩ := ofValues?_eq_some_iff.1 h
  have ends : r.IsFinite := ⟨finite _ lowerMem, finite _ upperMem⟩
  have ordered : le r.lower r.upper = true :=
    le_of_totalRank_le ends.1 ends.2 (between _ upperMem).1
  have wide : (padded scale r).Widens r ∧ scale.Represents (padded scale r).lower := by
    cases scale with
    | log =>
      obtain ⟨widens, positive⟩ := padded_log_widens ends ordered (represented _ lowerMem rfl)
      exact ⟨widens, fun _ => positive⟩
    | linear => exact ⟨padded_linear_widens ends ordered, fun log => nomatch log⟩
  refine ⟨wide.1.increasing, wide.2, ?_⟩
  intro v member
  obtain ⟨least, most⟩ := between v member
  exact ⟨Binary64.le_trans wide.1.lower (le_of_totalRank_le ends.1 (finite v member) least),
    Binary64.le_trans (le_of_totalRank_le (finite v member) ends.2 most) wide.1.upper⟩

/-- Room does not lead beyond the finite numbers from where they are not large. -/
theorem isFinite_padded {k : Nat} (scale : AxisScale) (lower : AtMost k r.lower)
    (upper : AtMost k r.upper) (one : 1074 ≤ k) (bound : k + 1 < 2098) :
    (padded scale r).IsFinite := by
  cases scale with
  | log =>
    have top : AtMost (k + 1) (mul r.upper roomFactor) :=
      upper.mul within_roomFactor.atMost (by omega) bound
    have bottom : AtMost k (div r.lower roomFactor) :=
      lower.div within_roomFactor (by omega) (by omega)
    exact ⟨bottom.isFinite, top.isFinite⟩
  | linear =>
    have span : AtMost (k + 1) r.span := by
      cases increasing : lt r.lower r.upper with
      | true =>
        rw [span_of_lt increasing]
        exact upper.sub lower bound
      | false =>
        obtain ⟨s, m, hl, most⟩ := lower
        obtain ⟨n, hspan, -, -, size⟩ := exists_span hl increasing
        refine AtMost.mono ⟨false, n, hspan, ?_⟩ (Nat.le_succ k)
        rcases size with same | unit
        · rw [same]
          exact most
        · obtain ⟨e, he, unit_eq⟩ := unit_eq_two_pow
          rw [unit, unit_eq]
          exact Nat.pow_le_pow_right Nat.two_pos (by omega)
    have room : AtMost k r.linearRoom :=
      within_roomPart.atMost.mul span (by omega) (by omega)
    exact ⟨(lower.sub room bound).isFinite, (upper.add room bound).isFinite⟩

end Range

end AccessLatency
