import Caflow.Lib.Tally

namespace Caflow.Fifo
open Tally

variable {γ : Type*}

/-- What a need draws from a pool, piece by piece from the front, and what it leaves of the pool. -/
def draw : ℤ → List (γ × ℤ) → List (γ × ℤ) × List (γ × ℤ)
  | _, [] => ([], [])
  | need, (c, left) :: pool =>
    if need ≤ 0 then ([], (c, left) :: pool)
    else if left ≤ 0 then draw need pool
    else if left < need then
      let later := draw (need - left) pool
      ((c, left) :: later.1, later.2)
    else ([(c, need)], (c, left - need) :: pool)

/-- The needs in their order, each drawing from what the earlier ones leave. -/
def fill : List ℤ → List (γ × ℤ) → List (List (γ × ℤ)) × List (γ × ℤ)
  | [], pool => ([], pool)
  | need :: needs, pool =>
    let drawn := draw need pool
    let later := fill needs drawn.2
    (drawn.1 :: later.1, later.2)

def total (pieces : List (γ × ℤ)) : ℤ := (pieces.map Prod.snd).sum

/-- What each need gets of an amount, the first ones first. -/
def cover : ℤ → List ℤ → List ℤ
  | _, [] => []
  | amount, need :: needs => min need amount :: cover (amount - min need amount) needs

@[simp] theorem total_nil : total ([] : List (γ × ℤ)) = 0 := rfl

@[simp] theorem total_cons (p : γ × ℤ) (pieces : List (γ × ℤ)) :
    total (p :: pieces) = p.2 + total pieces := rfl

def Nonneg (pieces : List (γ × ℤ)) : Prop := ∀ p ∈ pieces, 0 ≤ p.2

theorem Nonneg.total {pieces : List (γ × ℤ)} (h : Nonneg pieces) : 0 ≤ total pieces := by
  apply List.sum_nonneg
  intro x hx
  obtain ⟨p, hp, rfl⟩ := List.mem_map.mp hx
  exact h p hp

theorem draw_nonneg {pool : List (γ × ℤ)} (h : Nonneg pool) (need : ℤ) :
    Nonneg (draw need pool).1 ∧ Nonneg (draw need pool).2 := by
  induction pool generalizing need with
  | nil => exact ⟨nofun, nofun⟩
  | cons p pool ih =>
    obtain ⟨c, left⟩ := p
    obtain ⟨hleft, hpool⟩ := List.forall_mem_cons.mp h
    unfold draw
    split_ifs with hneed hnone hshort
    · exact ⟨nofun, h⟩
    · exact ih hpool need
    · obtain ⟨hdrawn, hrest⟩ := ih hpool (need - left)
      exact ⟨List.forall_mem_cons.mpr ⟨hleft, hdrawn⟩, hrest⟩
    · constructor
      · intro p hp
        obtain rfl := List.mem_singleton.mp hp
        exact (not_le.mp hneed).le
      · refine List.forall_mem_cons.mpr ⟨?_, hpool⟩
        simp only
        omega

/-- A need draws what it asks for, or the whole pool. -/
theorem draw_total {pool : List (γ × ℤ)} (h : Nonneg pool) {need : ℤ} (hneed : 0 ≤ need) :
    total (draw need pool).1 = min need (total pool) := by
  induction pool generalizing need with
  | nil => simp [draw, hneed]
  | cons p pool ih =>
    obtain ⟨c, left⟩ := p
    obtain ⟨hleft, hpool⟩ := List.forall_mem_cons.mp h
    simp only at hleft
    have hrest := Nonneg.total hpool
    unfold draw
    simp only [total_cons]
    split_ifs with hzero hnone hshort
    · simp only [total_nil]
      omega
    · rw [ih hpool hneed]
      omega
    · simp only [total_cons]
      rw [ih hpool (by omega)]
      omega
    · simp only [total_cons, total_nil]
      omega

theorem draw_conserves [DecidableEq γ] {pool : List (γ × ℤ)} (h : Nonneg pool) (need : ℤ) (c : γ) :
    tally (draw need pool).1 c + tally (draw need pool).2 c = tally pool c := by
  induction pool generalizing need with
  | nil => rfl
  | cons p pool ih =>
    obtain ⟨c', left⟩ := p
    obtain ⟨hleft, hpool⟩ := List.forall_mem_cons.mp h
    simp only at hleft
    unfold draw
    split_ifs with hneed hnone hshort
    · simp
    · obtain rfl : left = 0 := by omega
      rw [ih hpool, tally_cons]
      simp
    · simp only [tally_cons]
      rw [← ih hpool (need - left)]
      ring
    · simp only [tally_cons, tally_nil]
      split <;> ring

theorem draw_rest {pool : List (γ × ℤ)} (h : Nonneg pool) (need : ℤ) :
    total (draw need pool).1 + total (draw need pool).2 = total pool := by
  induction pool generalizing need with
  | nil => rfl
  | cons p pool ih =>
    obtain ⟨c, left⟩ := p
    obtain ⟨hleft, hpool⟩ := List.forall_mem_cons.mp h
    simp only at hleft
    unfold draw
    split_ifs with hneed hnone hshort
    · simp
    · rw [ih hpool]
      simp only [total_cons]
      omega
    · have := ih hpool (need - left)
      simp only [total_cons]
      omega
    · simp only [total_cons, total_nil]
      omega

theorem fill_nonneg {pool : List (γ × ℤ)} (h : Nonneg pool) (needs : List ℤ) :
    (∀ parts ∈ (fill needs pool).1, Nonneg parts) ∧ Nonneg (fill needs pool).2 := by
  induction needs generalizing pool with
  | nil => exact ⟨nofun, h⟩
  | cons need needs ih =>
    obtain ⟨hdrawn, hrest⟩ := draw_nonneg h need
    obtain ⟨hparts, hleft⟩ := ih hrest
    exact ⟨List.forall_mem_cons.mpr ⟨hdrawn, hparts⟩, hleft⟩

/-- The pieces do not matter to what each need gets, their total does. -/
theorem fill_cover {pool : List (γ × ℤ)} (h : Nonneg pool) {needs : List ℤ}
    (hneeds : ∀ need ∈ needs, 0 ≤ need) :
    (fill needs pool).1.map total = cover (total pool) needs := by
  induction needs generalizing pool with
  | nil => rfl
  | cons need needs ih =>
    obtain ⟨hneed, hrest⟩ := List.forall_mem_cons.mp hneeds
    have htotal := draw_total h hneed
    have hleft : total (draw need pool).2 = total pool - min need (total pool) := by
      have := draw_rest h need
      omega
    simp only [fill, List.map_cons, cover]
    rw [htotal, ih (draw_nonneg h need).2 hrest, hleft]

theorem fill_conserves [DecidableEq γ] {pool : List (γ × ℤ)} (h : Nonneg pool) (needs : List ℤ)
    (c : γ) :
    tally (fill needs pool).1.flatten c + tally (fill needs pool).2 c = tally pool c := by
  induction needs generalizing pool with
  | nil => simp [fill]
  | cons need needs ih =>
    have := ih (draw_nonneg h need).2
    have := draw_conserves h need c
    simp only [fill, List.flatten_cons, tally_append]
    omega

theorem fill_rest {pool : List (γ × ℤ)} (h : Nonneg pool) (needs : List ℤ) :
    ((fill needs pool).1.map total).sum + total (fill needs pool).2 = total pool := by
  induction needs generalizing pool with
  | nil => simp [fill]
  | cons need needs ih =>
    have := ih (draw_nonneg h need).2
    have := draw_rest h need
    simp only [fill, List.map_cons, List.sum_cons]
    omega

@[simp] theorem length_fill (needs : List ℤ) (pool : List (γ × ℤ)) :
    (fill needs pool).1.length = needs.length := by
  induction needs generalizing pool with
  | nil => rfl
  | cons need needs ih => simp [fill, ih]

@[simp] theorem length_cover (amount : ℤ) (needs : List ℤ) :
    (cover amount needs).length = needs.length := by
  induction needs generalizing amount with
  | nil => rfl
  | cons need needs ih => simp [cover, ih]

theorem cover_sum {amount : ℤ} (hamount : 0 ≤ amount) {needs : List ℤ}
    (hneeds : ∀ need ∈ needs, 0 ≤ need) : (cover amount needs).sum = min needs.sum amount := by
  induction needs generalizing amount with
  | nil => simp [cover, hamount]
  | cons need needs ih =>
    obtain ⟨hneed, hrest⟩ := List.forall_mem_cons.mp hneeds
    have hsum : 0 ≤ needs.sum := List.sum_nonneg hrest
    simp only [cover, List.sum_cons]
    rw [ih (by omega) hrest]
    omega

/-- What a need gets is what the amount leaves after the needs before it, as far as it goes. -/
theorem cover_at {amount : ℤ} {needs : List ℤ} (hneeds : ∀ need ∈ needs, 0 ≤ need)
    (hamount : 0 ≤ amount) {i : ℕ} {need : ℤ} (h : needs[i]? = some need) :
    (cover amount needs)[i]? = some (max 0 (min need (amount - (needs.take i).sum))) := by
  induction needs generalizing amount i with
  | nil => simp at h
  | cons first needs ih =>
    obtain ⟨hfirst, hrest⟩ := List.forall_mem_cons.mp hneeds
    cases i with
    | zero =>
      obtain rfl : first = need := by simpa using h
      simp only [cover, List.getElem?_cons_zero, List.take_zero, List.sum_nil, Option.some.injEq]
      omega
    | succ i =>
      have hlater : needs[i]? = some need := by simpa using h
      have hneed := hrest need (List.mem_of_getElem? hlater)
      have hsum : 0 ≤ (needs.take i).sum :=
        List.sum_nonneg fun x hx => hrest x (List.mem_of_mem_take hx)
      simp only [cover, List.getElem?_cons_succ, List.take_succ_cons, List.sum_cons]
      rw [ih hrest (by omega) hlater]
      simp only [Option.some.injEq]
      omega

/-- More to cover with never covers a need less. -/
theorem cover_mono {amount amount' : ℤ} (h : amount ≤ amount') (hamount : 0 ≤ amount)
    {needs : List ℤ} (hneeds : ∀ need ∈ needs, 0 ≤ need) {i : ℕ} {x x' : ℤ}
    (hx : (cover amount needs)[i]? = some x) (hx' : (cover amount' needs)[i]? = some x') :
    x ≤ x' := by
  have hi : i < needs.length := by
    obtain ⟨hlt, -⟩ := List.getElem?_eq_some_iff.mp hx
    simpa using hlt
  have hneed : needs[i]? = some needs[i] := List.getElem?_eq_getElem hi
  rw [cover_at hneeds hamount hneed] at hx
  rw [cover_at hneeds (by omega) hneed] at hx'
  simp only [Option.some.injEq] at hx hx'
  omega

/-- A need gets something only when every need before it has got all it asks for. -/
theorem cover_in_order {amount : ℤ} (hamount : 0 ≤ amount) {needs : List ℤ}
    (hneeds : ∀ need ∈ needs, 0 ≤ need) {i j : ℕ} (hij : i < j) {x y : ℤ}
    (hx : (cover amount needs)[j]? = some x) (hpos : 0 < x)
    (hy : (cover amount needs)[i]? = some y) : needs[i]? = some y := by
  have hj : j < needs.length := by
    obtain ⟨hlt, -⟩ := List.getElem?_eq_some_iff.mp hx
    simpa using hlt
  have hi : needs[i]? = some needs[i] := List.getElem?_eq_getElem (hij.trans hj)
  have hbefore : (needs.take i).sum + needs[i] ≤ (needs.take j).sum := by
    rw [← List.sum_take_succ needs i (hij.trans hj)]
    have hprefix : (needs.take j).take (i + 1) = needs.take (i + 1) := by
      rw [List.take_take, min_eq_left (by omega)]
    rw [← hprefix, ← List.take_append_drop (i + 1) (needs.take j), List.sum_append,
      List.take_append_drop]
    apply le_add_of_nonneg_right
    apply List.sum_nonneg
    intro z hz
    exact hneeds z (List.mem_of_mem_take (List.mem_of_mem_drop hz))
  rw [cover_at hneeds hamount (List.getElem?_eq_getElem hj)] at hx
  rw [cover_at hneeds hamount hi] at hy
  have hnonneg := hneeds needs[i] (List.getElem_mem _)
  simp only [Option.some.injEq] at hx hy
  rw [hi, ← hy]
  simp only [Option.some.injEq]
  omega

end Caflow.Fifo
