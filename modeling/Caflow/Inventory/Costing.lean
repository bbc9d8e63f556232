import Caflow.Failure
import Caflow.Lib.LargestRemainder

namespace Caflow.Inventory
open Rounding

/-- The figures of one stock movement, as the ledger stores them. Quantities are exact
decimals and money is whole paise. -/
structure Movement where
  quantityDelta : ℚ
  unitCostPaise : ℤ
  valueDeltaPaise : ℤ
  runningQtyUnits : ℚ
  runningAvgCostPaise : ℤ
  runningValuePaise : ℤ
  deriving DecidableEq

/-- One receipt still (partly) on hand, and what that part is worth. -/
structure Layer where
  quantity : ℚ
  valuePaise : ℤ
  deriving DecidableEq

/-- What a FIFO issue costs, what it leaves behind, and the units no layer covered. -/
structure Issue where
  valuePaise : ℤ
  remaining : List Layer
  uncoveredQuantity : ℚ
  deriving DecidableEq

/-- What a replay of an item's movements leaves behind; `deficit` is the oversold quantity. -/
structure Position where
  layers : List Layer
  deficit : ℚ

def valueOf (layers : List Layer) : ℤ := (layers.map Layer.valuePaise).sum

def quantityOf (layers : List Layer) : ℚ := (layers.map Layer.quantity).sum

def Position.quantity (p : Position) : ℚ := quantityOf p.layers - p.deficit

def Position.valuePaise (p : Position) : ℤ := valueOf p.layers

/-- The loop of `consume`: `left` is what the older layers have not covered. -/
def takeOldest : List Layer → ℚ → Issue
  | [], left => ⟨0, [], max 0 left⟩
  | layer :: layers, left =>
    if left ≤ 0 then
      let rest := takeOldest layers left
      { rest with remaining := layer :: rest.remaining }
    else if layer.quantity ≤ left then
      let rest := takeOldest layers (left - layer.quantity)
      { rest with valuePaise := layer.valuePaise + rest.valuePaise }
    else
      let part := min (halfUp (layer.valuePaise * left / layer.quantity)) layer.valuePaise
      let rest := takeOldest layers 0
      { rest with
        valuePaise := part + rest.valuePaise
        remaining := ⟨layer.quantity - left, layer.valuePaise - part⟩ :: rest.remaining }

/-- Take a quantity off the oldest layers first, and say what it cost. -/
def consume (layers : List Layer) (quantity : ℚ) : Except Failure Issue :=
  if quantity ≤ 0 then .error (.valueError "An issue must be of a positive quantity.")
  else .ok (takeOldest layers quantity)

/-- Re-cost the layers so that together they are worth exactly `toValuePaise`. -/
def rebase (layers : List Layer) (toValuePaise : ℤ) : List Layer :=
  let totalQty := quantityOf layers
  if totalQty ≤ 0 then []
  else
    let exact := layers.map (fun l => (toValuePaise : ℚ) * l.quantity / totalQty)
    List.zipWith (fun l share => ⟨l.quantity, share⟩) layers
      (LargestRemainder.apportion toValuePaise exact)

/-- One row of the replay. -/
def replayStep (p : Position) (m : Movement) : Position :=
  if 0 < m.quantityDelta then
    let covered := if 0 < p.deficit then min m.quantityDelta p.deficit else 0
    let qty := m.quantityDelta - covered
    { layers := if 0 < qty then p.layers ++ [⟨qty, m.valueDeltaPaise⟩] else p.layers
      deficit := p.deficit - covered }
  else if m.quantityDelta < 0 then
    let issue := takeOldest p.layers (-m.quantityDelta)
    ⟨issue.remaining, p.deficit + issue.uncoveredQuantity⟩
  else if p.layers ≠ [] ∧ m.valueDeltaPaise ≠ 0 then
    { p with layers := rebase p.layers m.runningValuePaise }
  else p

/-- The receipts still on hand, oldest first, replayed from the ledger. -/
def layersFromMovements (movements : List Movement) (openingDeficit : ℚ) : Position :=
  movements.foldl replayStep ⟨[], openingDeficit⟩

@[simp] theorem value_of_nil : valueOf [] = 0 := rfl

@[simp] theorem value_of_cons (l : Layer) (ls : List Layer) :
    valueOf (l :: ls) = l.valuePaise + valueOf ls := by simp [valueOf]

@[simp] theorem value_of_append (ls ls' : List Layer) :
    valueOf (ls ++ ls') = valueOf ls + valueOf ls' := by simp [valueOf]

@[simp] theorem quantity_of_nil : quantityOf [] = 0 := rfl

@[simp] theorem quantity_of_cons (l : Layer) (ls : List Layer) :
    quantityOf (l :: ls) = l.quantity + quantityOf ls := by simp [quantityOf]

@[simp] theorem quantity_of_append (ls ls' : List Layer) :
    quantityOf (ls ++ ls') = quantityOf ls + quantityOf ls' := by simp [quantityOf]

/-- Every layer holds something. -/
def Stocked (layers : List Layer) : Prop := ∀ l ∈ layers, 0 < l.quantity

theorem Stocked.tail (h : Stocked (l :: ls)) : Stocked ls := fun x hx => h x (by simp [hx])

theorem Stocked.quantity_nonneg (h : Stocked ls) : 0 ≤ quantityOf ls := by
  induction ls with
  | nil => simp
  | cons l ls ih =>
    have := h l (by simp)
    have := ih h.tail
    rw [quantity_of_cons]
    linarith

theorem Stocked.quantity_pos (h : Stocked ls) (hn : ls ≠ []) : 0 < quantityOf ls := by
  cases ls with
  | nil => contradiction
  | cons l ls =>
    have := h l (by simp)
    have := h.tail.quantity_nonneg
    rw [quantity_of_cons]
    linarith

theorem Stocked.concat (h : Stocked ls) (hl : 0 < l.quantity) : Stocked (ls ++ [l]) := by
  intro x hx
  rcases List.mem_append.mp hx with hx | hx
  · exact h x hx
  · cases List.mem_singleton.mp hx
    exact hl

/-- A loop that has covered its quantity passes the younger layers through. -/
theorem take_oldest_done (ls : List Layer) (left : ℚ) (h : left ≤ 0) :
    takeOldest ls left = ⟨0, ls, 0⟩ := by
  induction ls with
  | nil => simp [takeOldest, h]
  | cons l ls ih => simp [takeOldest, h, ih]

/-- What goes out plus what stays behind is what was there, to the paise. -/
theorem take_oldest_value (ls : List Layer) (left : ℚ) :
    (takeOldest ls left).valuePaise + valueOf (takeOldest ls left).remaining = valueOf ls := by
  induction ls generalizing left with
  | nil => simp [takeOldest]
  | cons l ls ih =>
    by_cases hdone : left ≤ 0
    · rw [take_oldest_done _ _ hdone]
      simp
    · by_cases hwhole : l.quantity ≤ left
      · have := ih (left - l.quantity)
        simp only [takeOldest, hdone, hwhole, ↓reduceIte, value_of_cons]
        omega
      · have := ih 0
        simp only [takeOldest, hdone, hwhole, ↓reduceIte, value_of_cons]
        omega

/-- The quantity left behind less the quantity not covered is what was there less the issue. -/
theorem take_oldest_quantity (ls : List Layer) (left : ℚ) (hl : 0 ≤ left) :
    quantityOf (takeOldest ls left).remaining - (takeOldest ls left).uncoveredQuantity =
      quantityOf ls - left := by
  induction ls generalizing left with
  | nil => simp [takeOldest, hl]
  | cons l ls ih =>
    by_cases hdone : left ≤ 0
    · rw [take_oldest_done _ _ hdone]
      have : left = 0 := le_antisymm hdone hl
      simp [this]
    · by_cases hwhole : l.quantity ≤ left
      · have := ih (left - l.quantity) (by linarith)
        simp only [takeOldest, hdone, hwhole, ↓reduceIte, quantity_of_cons]
        linarith
      · have := ih 0 le_rfl
        simp only [takeOldest, hdone, hwhole, ↓reduceIte, quantity_of_cons]
        linarith

theorem take_oldest_stocked (ls : List Layer) (left : ℚ) (h : Stocked ls) :
    Stocked (takeOldest ls left).remaining := by
  induction ls generalizing left with
  | nil => simp [takeOldest, Stocked]
  | cons l ls ih =>
    by_cases hdone : left ≤ 0
    · rw [take_oldest_done _ _ hdone]
      exact h
    · by_cases hwhole : l.quantity ≤ left
      · simpa only [takeOldest, hdone, hwhole, ↓reduceIte] using ih (left - l.quantity) h.tail
      · simp only [takeOldest, hdone, hwhole, ↓reduceIte]
        intro x hx
        rcases List.mem_cons.mp hx with rfl | hx
        · simpa using not_le.mp hwhole
        · exact ih 0 h.tail x hx

/-- An issue that was not covered in full took every layer. -/
theorem take_oldest_uncovered (ls : List Layer) (left : ℚ) (h : Stocked ls) :
    0 ≤ (takeOldest ls left).uncoveredQuantity ∧
      ((takeOldest ls left).remaining ≠ [] → (takeOldest ls left).uncoveredQuantity = 0) := by
  induction ls generalizing left with
  | nil => simp [takeOldest]
  | cons l ls ih =>
    by_cases hdone : left ≤ 0
    · rw [take_oldest_done _ _ hdone]
      simp
    · by_cases hwhole : l.quantity ≤ left
      · simpa only [takeOldest, hdone, hwhole, ↓reduceIte] using ih (left - l.quantity) h.tail
      · simp only [takeOldest, hdone, hwhole, ↓reduceIte, take_oldest_done ls 0 le_rfl]
        simp

/-- Only the oldest layer may be worth less than nothing. -/
def Sound : List Layer → Prop
  | [] => True
  | _ :: ls => ∀ l ∈ ls, 0 ≤ l.valuePaise

theorem Sound.of_nonneg (h : ∀ l ∈ ls, 0 ≤ l.valuePaise) : Sound ls := by
  cases ls with
  | nil => trivial
  | cons l ls => exact fun x hx => h x (by simp [hx])

theorem Sound.concat (h : Sound ls) (hl : ls ≠ [] → 0 ≤ l.valuePaise) : Sound (ls ++ [l]) := by
  cases ls with
  | nil => intro x hx; simp at hx
  | cons a as =>
    intro x hx
    rcases List.mem_append.mp hx with hx | hx
    · exact h x hx
    · cases List.mem_singleton.mp hx
      exact hl (by simp)

theorem value_of_nonneg (h : ∀ l ∈ ls, 0 ≤ l.valuePaise) : 0 ≤ valueOf ls := by
  induction ls with
  | nil => simp
  | cons l ls ih =>
    have := h l (by simp)
    have := ih (fun x hx => h x (by simp [hx]))
    rw [value_of_cons]
    omega

/-- An issue takes the oldest layer or splits it, and a split never leaves less than nothing. -/
theorem take_oldest_nonneg (ls : List Layer) (left : ℚ) (hl : 0 < left) (h : Sound ls) :
    ∀ l ∈ (takeOldest ls left).remaining, 0 ≤ l.valuePaise := by
  induction ls generalizing left with
  | nil => simp [takeOldest]
  | cons l ls ih =>
    have hdone : ¬ left ≤ 0 := not_le.mpr hl
    by_cases hwhole : l.quantity ≤ left
    · simp only [takeOldest, hdone, hwhole, ↓reduceIte]
      rcases eq_or_lt_of_le hwhole with he | hlt
      · rw [take_oldest_done _ _ (by linarith)]
        exact h
      · exact ih (left - l.quantity) (by linarith) (Sound.of_nonneg h)
    · simp only [takeOldest, hdone, hwhole, ↓reduceIte, take_oldest_done ls 0 le_rfl]
      intro x hx
      rcases List.mem_cons.mp hx with rfl | hx
      · have := min_le_right (halfUp (l.valuePaise * left / l.quantity)) l.valuePaise
        dsimp only
        omega
      · exact h x hx

theorem revalued_shape (ls : List Layer) (shares : List ℤ) (hlen : shares.length = ls.length) :
    (List.zipWith (fun l share => (⟨l.quantity, share⟩ : Layer)) ls shares).map Layer.quantity =
        ls.map Layer.quantity ∧
      (List.zipWith (fun l share => (⟨l.quantity, share⟩ : Layer)) ls shares).map
        Layer.valuePaise = shares := by
  induction ls generalizing shares with
  | nil => simp [List.length_eq_zero_iff.mp hlen]
  | cons l ls ih =>
    cases shares with
    | nil => simp at hlen
    | cons s ss =>
      obtain ⟨hq, hv⟩ := ih ss (by simpa using hlen)
      exact ⟨by simp [hq], by simp [hv]⟩

theorem rebase_eq (h : Stocked ls) (hn : ls ≠ []) (v : ℤ) :
    rebase ls v = List.zipWith (fun l share => ⟨l.quantity, share⟩) ls
      (LargestRemainder.apportion v
        (ls.map (fun l => (v : ℚ) * l.quantity / quantityOf ls))) :=
  if_neg (not_le.mpr (h.quantity_pos hn))

theorem rebase_quantities (h : Stocked ls) (hn : ls ≠ []) (v : ℤ) :
    (rebase ls v).map Layer.quantity = ls.map Layer.quantity := by
  rw [rebase_eq h hn]
  exact (revalued_shape ls _ (by simp)).1

theorem rebase_values (h : Stocked ls) (hn : ls ≠ []) (v : ℤ) :
    (rebase ls v).map Layer.valuePaise = LargestRemainder.apportion v
      (LargestRemainder.exactShares v (ls.map Layer.quantity)) := by
  have hexact : LargestRemainder.exactShares v (ls.map Layer.quantity) =
      ls.map fun l => (v : ℚ) * l.quantity / quantityOf ls := List.map_map
  rw [rebase_eq h hn, hexact]
  exact (revalued_shape ls _ (by simp)).2

/-- The exact shares of a value are not negative and lose none of it. -/
theorem exact_shares (h : Stocked ls) (hn : ls ≠ []) {v : ℤ} (hv : 0 ≤ v) :
    (∀ x ∈ LargestRemainder.exactShares v (ls.map Layer.quantity), 0 ≤ x) ∧
      (LargestRemainder.exactShares v (ls.map Layer.quantity)).sum = v := by
  refine ⟨LargestRemainder.exact_shares_nonneg hv fun w hw => ?_,
    LargestRemainder.exact_shares_sum v (h.quantity_pos hn).ne'⟩
  obtain ⟨l, hl, rfl⟩ := List.mem_map.mp hw
  exact (h l hl).le

theorem rebase_quantity (h : Stocked ls) (hn : ls ≠ []) (v : ℤ) :
    quantityOf (rebase ls v) = quantityOf ls := by
  unfold quantityOf
  rw [rebase_quantities h hn]

/-- Re-costed layers are worth what they were re-costed to, exactly. -/
theorem rebase_value (h : Stocked ls) (hn : ls ≠ []) (hv : 0 ≤ v) :
    valueOf (rebase ls v) = v := by
  unfold valueOf
  rw [rebase_values h hn]
  obtain ⟨hpos, hsum⟩ := exact_shares h hn hv
  exact LargestRemainder.apportion_sum v _ hpos hsum

theorem rebase_stocked (h : Stocked ls) (hn : ls ≠ []) (v : ℤ) : Stocked (rebase ls v) := by
  intro l hl
  have hm : l.quantity ∈ ls.map Layer.quantity := by
    rw [← rebase_quantities h hn v]
    exact List.mem_map_of_mem hl
  obtain ⟨l', hl', he⟩ := List.mem_map.mp hm
  exact he ▸ h l' hl'

theorem rebase_nonneg (h : Stocked ls) (hn : ls ≠ []) (hv : 0 ≤ v) :
    ∀ l ∈ rebase ls v, 0 ≤ l.valuePaise := by
  intro l hl
  have hm : l.valuePaise ∈ (rebase ls v).map Layer.valuePaise := List.mem_map_of_mem hl
  rw [rebase_values h hn] at hm
  exact LargestRemainder.apportion_nonneg v _ (exact_shares h hn hv).1 _ hm

section SharedCosts
open LargestRemainder

def floored (weights : List ℤ) : List ℚ := weights.map fun w => (max 0 w : ℤ)

/-- An amount divided in proportion to the weights, to the last paisa. Nothing is divided when
there is nothing, or nobody to give it to. -/
def splitProRata (amountPaise : ℤ) (weights : List ℤ) : List ℤ :=
  let total := (floored weights).sum
  if amountPaise ≤ 0 ∨ total ≤ 0 then weights.map fun _ => 0
  else apportion amountPaise ((floored weights).map fun w => amountPaise * w / total)

theorem floored_nonneg (h : w ∈ floored weights) : 0 ≤ w := by
  obtain ⟨x, -, rfl⟩ := List.mem_map.mp h
  exact_mod_cast le_max_left 0 x

/-- Weights that add up to something leave something once the negative ones are floored. -/
theorem floored_sum_pos (h : 0 < weights.sum) : 0 < (floored weights).sum := by
  have hle : ((weights.sum : ℤ) : ℚ) ≤ (floored weights).sum := by
    clear h
    induction weights with
    | nil => simp [floored]
    | cons w ws ih =>
      have hw : (w : ℚ) ≤ (max 0 w : ℤ) := by exact_mod_cast le_max_right 0 w
      simp only [floored, List.map_cons, List.sum_cons] at ih ⊢
      push_cast at ih hw ⊢
      linarith
  have : (0 : ℚ) < weights.sum := by exact_mod_cast h
  linarith

theorem split_pro_rata_nonneg (amountPaise : ℤ) (weights : List ℤ) :
    ∀ s ∈ splitProRata amountPaise weights, 0 ≤ s := by
  unfold splitProRata
  dsimp only
  split_ifs with h
  · intro s hs
    obtain ⟨_, _, rfl⟩ := List.mem_map.mp hs
    exact le_rfl
  · rw [not_or, not_le, not_le] at h
    exact apportion_nonneg _ _ (exact_shares_nonneg h.1.le fun w => floored_nonneg)

@[simp] theorem split_pro_rata_length (amountPaise : ℤ) (weights : List ℤ) :
    (splitProRata amountPaise weights).length = weights.length := by
  unfold splitProRata
  dsimp only
  split_ifs <;> simp [floored]

/-- The parts of an amount add up to it exactly; an amount that is not positive has none. -/
theorem split_pro_rata_sum (amountPaise : ℤ) (h : 0 < weights.sum) :
    (splitProRata amountPaise weights).sum = max 0 amountPaise := by
  have ht := floored_sum_pos h
  unfold splitProRata
  dsimp only
  split_ifs with hz
  · have ha : amountPaise ≤ 0 := hz.resolve_right (not_le.mpr ht)
    rw [max_eq_left ha]
    exact List.sum_eq_zero (by simp)
  · rw [not_or, not_le, not_le] at hz
    rw [max_eq_right hz.1.le]
    exact apportion_sum _ _ (exact_shares_nonneg hz.1.le fun w => floored_nonneg)
      (exact_shares_sum amountPaise ht.ne')

end SharedCosts

end Caflow.Inventory
