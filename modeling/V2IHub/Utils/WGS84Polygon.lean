import V2IHub.Foundation.Cycle
import V2IHub.Utils.Intersection

/-! `WGS84Polygon`: a ray from the point towards greater longitudes, with exact coordinates. -/
namespace V2IHub.Utils.WGS84Polygon
open Foundation Intersection

/-- The second half of the loop's body, behind the choice of `leftx`: whether it counts a hit. -/
def hitRightOf (pointToTest last cur : WGS84Point ℚ) (leftx : ℚ) : Bool :=
  let x := pointToTest.Longitude
  let y := pointToTest.Latitude
  if cur.Latitude < last.Latitude then
    if y < cur.Latitude ∨ y ≥ last.Latitude then false
    else if x < leftx then true
    else
      let test1 := x - cur.Longitude
      let test2 := y - cur.Latitude
      test1 < test2 / (last.Latitude - cur.Latitude) * (last.Longitude - cur.Longitude)
  else
    if y < last.Latitude ∨ y ≥ cur.Latitude then false
    else if x < leftx then true
    else
      let test1 := x - last.Longitude
      let test2 := y - last.Latitude
      test1 < test2 / (last.Latitude - cur.Latitude) * (last.Longitude - cur.Longitude)

/-- The loop's body for the edge from `last` to `cur`. -/
def hit (pointToTest last cur : WGS84Point ℚ) : Bool :=
  if cur.Latitude = last.Latitude then false
  else if cur.Longitude < last.Longitude then
    if pointToTest.Longitude ≥ last.Longitude then false
    else hitRightOf pointToTest last cur cur.Longitude
  else
    if pointToTest.Longitude ≥ cur.Longitude then false
    else hitRightOf pointToTest last cur last.Longitude

/-- The loop over the points; `hits` is an `int`. -/
def walk (pointToTest : WGS84Point ℚ) : WGS84Point ℚ → List (WGS84Point ℚ) → BitVec 32 → BitVec 32
  | _, [], hits => hits
  | last, cur :: polyPoints, hits =>
    walk pointToTest cur polyPoints (if hit pointToTest last cur then hits + 1#32 else hits)

def isPointInsidePoly (pointToTest : WGS84Point ℚ) (polyPoints : List (WGS84Point ℚ)) : Bool :=
  match polyPoints.getLast? with
  | none => false
  | some last =>
    if polyPoints.length ≤ 2 then false
    else walk pointToTest last polyPoints 0#32 &&& 1#32 ≠ 0#32

/-- Where the line of the edge is at that latitude. -/
def crossingLongitude (edge : WGS84Point ℚ × WGS84Point ℚ) (latitude : ℚ) : ℚ :=
  edge.1.Longitude + (latitude - edge.1.Latitude) / (edge.2.Latitude - edge.1.Latitude) *
    (edge.2.Longitude - edge.1.Longitude)

/-- The edge, whose interval of latitudes is closed below and open above, passes the point at a
greater longitude. -/
def Crosses (point : WGS84Point ℚ) (edge : WGS84Point ℚ × WGS84Point ℚ) : Prop :=
  min edge.1.Latitude edge.2.Latitude ≤ point.Latitude ∧
    point.Latitude < max edge.1.Latitude edge.2.Latitude ∧
    point.Longitude < crossingLongitude edge point.Latitude

instance (point : WGS84Point ℚ) : DecidablePred (Crosses point) :=
  fun _ => inferInstanceAs (Decidable (_ ∧ _ ∧ _))

section Edge
variable {point : WGS84Point ℚ}

theorem crossingLongitude_swap {a b : WGS84Point ℚ} (h : a.Latitude ≠ b.Latitude) (latitude : ℚ) :
    crossingLongitude (b, a) latitude = crossingLongitude (a, b) latitude := by
  have hab : b.Latitude - a.Latitude ≠ 0 := sub_ne_zero.mpr h.symm
  have hba : a.Latitude - b.Latitude ≠ 0 := sub_ne_zero.mpr h
  simp only [crossingLongitude]
  field_simp
  ring

/-- An edge has no direction. -/
theorem crosses_swap (edge : WGS84Point ℚ × WGS84Point ℚ) :
    Crosses point edge.swap ↔ Crosses point edge := by
  obtain ⟨a, b⟩ := edge
  simp only [Crosses, Prod.swap_prod_mk, min_comm b.Latitude, max_comm b.Latitude]
  by_cases h : a.Latitude = b.Latitude
  · simp only [h, min_self, max_self]
    constructor <;> rintro ⟨hle, hlt, -⟩ <;> exact absurd hle (not_le.mpr hlt)
  · rw [crossingLongitude_swap h]

/-- Between the ends of an edge, the crossing is between their longitudes. -/
theorem crossingLongitude_mem {a b : WGS84Point ℚ} {latitude : ℚ} (hlow : a.Latitude ≤ latitude)
    (hhigh : latitude < b.Latitude) :
    min a.Longitude b.Longitude ≤ crossingLongitude (a, b) latitude ∧
      crossingLongitude (a, b) latitude ≤ max a.Longitude b.Longitude := by
  have hpos : 0 < b.Latitude - a.Latitude := by linarith
  have hzero : 0 ≤ (latitude - a.Latitude) / (b.Latitude - a.Latitude) :=
    div_nonneg (by linarith) hpos.le
  have hone : (latitude - a.Latitude) / (b.Latitude - a.Latitude) ≤ 1 := by
    rw [div_le_one hpos]
    linarith
  simp only [crossingLongitude]
  generalize (latitude - a.Latitude) / (b.Latitude - a.Latitude) = t at hzero hone
  rcases le_total a.Longitude b.Longitude with h | h
  · rw [min_eq_left h, max_eq_right h]
    constructor <;> nlinarith
  · rw [min_eq_right h, max_eq_left h]
    constructor <;> nlinarith

/-- An edge that rises from `a` to `b`: what the loop tests, left of the edge or not. -/
theorem crosses_rising {a b : WGS84Point ℚ} (h : a.Latitude < b.Latitude) :
    Crosses point (a, b) ↔ a.Latitude ≤ point.Latitude ∧ point.Latitude < b.Latitude ∧
      point.Longitude < crossingLongitude (a, b) point.Latitude := by
  simp only [Crosses, min_eq_left h.le, max_eq_right h.le]

/-- The test of the loop, which divides by the difference the other way round. -/
theorem test_iff {a b : WGS84Point ℚ} {x y : ℚ} :
    x - a.Longitude < (y - a.Latitude) / (a.Latitude - b.Latitude) *
        (a.Longitude - b.Longitude) ↔ x < crossingLongitude (a, b) y := by
  have hneg : (y - a.Latitude) / (a.Latitude - b.Latitude) * (a.Longitude - b.Longitude) =
      (y - a.Latitude) / (b.Latitude - a.Latitude) * (b.Longitude - a.Longitude) := by
    rw [← neg_sub b.Latitude, ← neg_sub b.Longitude, div_neg, neg_mul_neg]
  rw [hneg, crossingLongitude, sub_lt_iff_lt_add']

/-- A point that is not left of the greater end is passed on no edge. -/
theorem Crosses.longitude_lt {a b : WGS84Point ℚ} (h : Crosses point (a, b)) :
    point.Longitude < max a.Longitude b.Longitude := by
  obtain ⟨hlow, hhigh, hcross⟩ := h
  simp only at hlow hhigh hcross
  rcases lt_trichotomy a.Latitude b.Latitude with hlt | heq | hlt
  · rw [min_eq_left hlt.le] at hlow
    rw [max_eq_right hlt.le] at hhigh
    exact hcross.trans_le (crossingLongitude_mem hlow hhigh).2
  · rw [heq, min_self] at hlow
    rw [heq, max_self] at hhigh
    exact absurd hlow (not_le.mpr hhigh)
  · rw [min_eq_right hlt.le] at hlow
    rw [max_eq_left hlt.le] at hhigh
    rw [← crossingLongitude_swap hlt.ne'] at hcross
    rw [max_comm]
    exact hcross.trans_le (crossingLongitude_mem hlow hhigh).2

/-- Left of both ends, the test would say the same. -/
theorem hitRightOf_iff {last cur : WGS84Point ℚ} (h : cur.Latitude ≠ last.Latitude) :
    hitRightOf point last cur (min last.Longitude cur.Longitude) = true ↔
      Crosses point (last, cur) := by
  have hrising : ∀ {a b : WGS84Point ℚ}, a.Latitude < b.Latitude → (Crosses point (a, b) ↔
      ¬ (point.Latitude < a.Latitude ∨ point.Latitude ≥ b.Latitude) ∧
        (point.Longitude < min a.Longitude b.Longitude ∨
          point.Longitude < crossingLongitude (a, b) point.Latitude)) := by
    intro a b hlt
    rw [crosses_rising hlt, not_or, not_lt, not_le, and_assoc]
    refine and_congr_right fun hlow => and_congr_right fun hhigh => ?_
    refine ⟨.inr, ?_⟩
    rintro (hleft | hcross)
    · exact hleft.trans_le (crossingLongitude_mem hlow hhigh).1
    · exact hcross
  rcases lt_or_gt_of_ne h with hlt | hlt
  · have hcross := hrising hlt
    have htest : point.Longitude - cur.Longitude < (point.Latitude - cur.Latitude) /
        (last.Latitude - cur.Latitude) * (last.Longitude - cur.Longitude) ↔
          point.Longitude < crossingLongitude (cur, last) point.Latitude := sub_lt_iff_lt_add'
    rw [← crosses_swap, Prod.swap_prod_mk, hcross, min_comm cur.Longitude, ← htest,
      hitRightOf, if_pos hlt]
    split_ifs <;> simp_all
  · have hcross := hrising hlt
    rw [hcross, ← test_iff, hitRightOf, if_neg hlt.not_gt]
    split_ifs <;> simp_all

/-- The tests of the bounds leave the answer as it is. -/
theorem hit_iff (last cur : WGS84Point ℚ) :
    hit point last cur = true ↔ Crosses point (last, cur) := by
  by_cases h : cur.Latitude = last.Latitude
  · rw [hit, if_pos h, ← crosses_swap, Crosses]
    simp only [Prod.swap_prod_mk, h, min_self, max_self, Bool.false_eq_true, false_iff]
    rintro ⟨hle, hlt, -⟩
    exact absurd hle (not_le.mpr hlt)
  · rw [hit, if_neg h, ← hitRightOf_iff h]
    have hright : max last.Longitude cur.Longitude ≤ point.Longitude →
        ¬ Crosses point (last, cur) :=
      fun hle hcross => absurd hcross.longitude_lt (not_lt.mpr hle)
    split_ifs with hlt hx hx
    · simpa [hitRightOf_iff h] using hright (by rw [max_eq_left hlt.le]; exact hx)
    · rw [min_eq_right hlt.le]
    · simpa [hitRightOf_iff h] using hright (by rw [max_eq_right (not_lt.mp hlt)]; exact hx)
    · rw [min_eq_left (not_lt.mp hlt)]

end Edge

section Walk
variable {pointToTest : WGS84Point ℚ} {polyPoints : List (WGS84Point ℚ)}

theorem walk_eq (last : WGS84Point ℚ) (polyPoints : List (WGS84Point ℚ)) (hits : BitVec 32) :
    walk pointToTest last polyPoints hits = hits +
      BitVec.ofNat 32 (((last :: polyPoints).zip polyPoints).countP (Crosses pointToTest)) := by
  induction polyPoints generalizing last hits with
  | nil => simp [walk]
  | cons cur polyPoints ih =>
    rw [walk, ih, List.zip_cons_cons, List.countP_cons]
    by_cases hcross : Crosses pointToTest (last, cur)
    · rw [if_pos ((hit_iff last cur).mpr hcross), if_pos (by simpa using hcross), BitVec.ofNat_add,
        BitVec.add_assoc, BitVec.add_comm 1#32]
    · rw [if_neg (mt (hit_iff last cur).mp hcross), if_neg (by simpa using hcross), add_zero]

/-- The lowest bit is that of the number itself, even where the counter wraps. -/
theorem ofNat_and_one_ne_zero (n : ℕ) : BitVec.ofNat 32 n &&& 1#32 ≠ 0#32 ↔ Odd n := by
  have hbit : (BitVec.ofNat 32 n &&& 1#32).toNat = n % 2 := by
    rw [BitVec.toNat_and, BitVec.toNat_ofNat, BitVec.toNat_ofNat, Nat.one_mod_two_pow (by decide),
      Nat.and_one_is_mod]
    omega
  rw [Nat.odd_iff, ne_eq, ← BitVec.toNat_inj, hbit, BitVec.toNat_ofNat]
  omega

/-- The number of edges that pass the point at a greater longitude. -/
def crossings (pointToTest : WGS84Point ℚ) (polyPoints : List (WGS84Point ℚ)) : ℕ :=
  (cyclicPairs polyPoints).countP (Crosses pointToTest)

theorem isPointInsidePoly_eq (pointToTest : WGS84Point ℚ) (polyPoints : List (WGS84Point ℚ)) :
    isPointInsidePoly pointToTest polyPoints = true ↔
      2 < polyPoints.length ∧ Odd (crossings pointToTest polyPoints) := by
  unfold isPointInsidePoly
  cases hlast : polyPoints.getLast? with
  | none =>
    obtain rfl := List.getLast?_eq_none_iff.mp hlast
    simp
  | some last =>
    have hcount := (cyclicPairs_perm_of_getLast hlast).countP_eq (Crosses pointToTest)
    simp only
    split_ifs with hlen
    · simp [hlen.not_gt]
    · rw [decide_eq_true_eq, walk_eq, BitVec.zero_add, ofNat_and_one_ne_zero, ← hcount]
      exact (and_iff_right (not_le.mp hlen)).symm

theorem crossings_rotate (n : ℕ) :
    crossings pointToTest (polyPoints.rotate n) = crossings pointToTest polyPoints := by
  rw [crossings, cyclicPairs_rotate]
  exact (List.rotate_perm _ _).countP_eq _

theorem crossings_reverse :
    crossings pointToTest polyPoints.reverse = crossings pointToTest polyPoints := by
  have hswap : (fun edge => decide (Crosses pointToTest edge)) ∘ Prod.swap =
      fun edge => decide (Crosses pointToTest edge) :=
    funext fun edge => decide_eq_decide.mpr (crosses_swap edge)
  rw [crossings, (cyclicPairs_reverse_perm polyPoints).countP_eq, List.countP_map, hswap, crossings]

/-- A polygon contains the point if an odd number of its edges pass the point at a greater longitude,
so that it does not matter where the list begins and which way it goes round. -/
theorem isPointInsidePoly_iff (pointToTest : WGS84Point ℚ) (polyPoints : List (WGS84Point ℚ))
    (h : 3 ≤ polyPoints.length) :
    (isPointInsidePoly pointToTest polyPoints = true ↔
        Odd ((cyclicPairs polyPoints).countP (Crosses pointToTest))) ∧
      (∀ n, isPointInsidePoly pointToTest (polyPoints.rotate n) =
        isPointInsidePoly pointToTest polyPoints) ∧
      isPointInsidePoly pointToTest polyPoints.reverse =
        isPointInsidePoly pointToTest polyPoints := by
  refine ⟨?_, fun n => ?_, ?_⟩
  · rw [isPointInsidePoly_eq]
    exact and_iff_right h
  · rw [Bool.eq_iff_iff, isPointInsidePoly_eq, isPointInsidePoly_eq, List.length_rotate,
      crossings_rotate]
  · rw [Bool.eq_iff_iff, isPointInsidePoly_eq, isPointInsidePoly_eq, List.length_reverse,
      crossings_reverse]

/-- A triangle of which one corner has the latitude of the point. -/
def sampleTriangle : List (WGS84Point ℚ) := [⟨0, 0, 0⟩, ⟨2, 4, 0⟩, ⟨6, 1, 0⟩]

theorem isPointInsidePoly_sampleTriangle :
    isPointInsidePoly ⟨2, 1, 0⟩ sampleTriangle = true ∧
      (isPointInsidePoly ⟨2, 1, 0⟩ sampleTriangle = true ↔
        Odd ((cyclicPairs sampleTriangle).countP (Crosses ⟨2, 1, 0⟩))) ∧
      isPointInsidePoly ⟨2, 1, 0⟩ sampleTriangle.reverse = true := by
  have hinside : isPointInsidePoly ⟨2, 1, 0⟩ sampleTriangle = true := by decide +kernel
  have h := isPointInsidePoly_iff ⟨2, 1, 0⟩ sampleTriangle (by decide)
  exact ⟨hinside, h.1, h.2.2.trans hinside⟩

end Walk

end V2IHub.Utils.WGS84Polygon
