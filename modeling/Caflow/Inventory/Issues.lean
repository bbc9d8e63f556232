import Caflow.Inventory.Costing

namespace Caflow.Inventory

/-- No layer holds less than nothing, or is worth less than nothing. -/
def NonnegLayers (layers : List Layer) : Prop := ∀ l ∈ layers, 0 ≤ l.quantity ∧ 0 ≤ l.valuePaise

/-- The older layers went out whole, and of the layer after them a part at most. -/
def OldestFirst (layers : List Layer) (issue : Issue) : Prop :=
  ∃ whole rest, layers = whole ++ rest ∧
    ((issue.valuePaise = valueOf whole ∧ issue.remaining = rest) ∨
      ∃ l kept younger, rest = l :: younger ∧ 0 < kept.quantity ∧ kept.quantity < l.quantity ∧
        issue.valuePaise = valueOf whole + (l.valuePaise - kept.valuePaise) ∧
        issue.remaining = kept :: younger)

/-- Issue after issue off the same layers: what they cost together, and what they leave. -/
def issues : List Layer → List ℚ → Except Failure (ℤ × List Layer)
  | layers, [] => .ok (0, layers)
  | layers, q :: qs => do
    let issue ← consume layers q
    let rest ← issues issue.remaining qs
    .ok (issue.valuePaise + rest.1, rest.2)

theorem NonnegLayers.tail (h : NonnegLayers (l :: ls)) : NonnegLayers ls :=
  fun x hx => h x (by simp [hx])

theorem NonnegLayers.quantity_nonneg (h : NonnegLayers ls) : 0 ≤ quantityOf ls := by
  induction ls with
  | nil => simp
  | cons l ls ih =>
    have hl := (h l (by simp)).1
    have := ih h.tail
    rw [quantity_of_cons]
    linarith

/-- Layers that hold nothing between them hold nothing each. -/
theorem NonnegLayers.all_empty (h : NonnegLayers ls) (hq : quantityOf ls ≤ 0) :
    ∀ l ∈ ls, l.quantity = 0 := by
  induction ls with
  | nil => simp
  | cons a ls ih =>
    have ha := (h a (by simp)).1
    have hrest := h.tail.quantity_nonneg
    rw [quantity_of_cons] at hq
    intro l hl
    rcases List.mem_cons.mp hl with rfl | hl
    · linarith
    · exact ih h.tail (by linarith) l hl

theorem take_oldest_first (ls : List Layer) (left : ℚ) :
    OldestFirst ls (takeOldest ls left) := by
  induction ls generalizing left with
  | nil => exact ⟨[], [], rfl, .inl ⟨rfl, rfl⟩⟩
  | cons l ls ih =>
    by_cases hdone : left ≤ 0
    · rw [take_oldest_done _ _ hdone]
      exact ⟨[], l :: ls, rfl, .inl ⟨rfl, rfl⟩⟩
    · by_cases hwhole : l.quantity ≤ left
      · obtain ⟨whole, rest, hls, hshape⟩ := ih (left - l.quantity)
        refine ⟨l :: whole, rest, by simp [hls], ?_⟩
        simp only [takeOldest, hdone, hwhole, ↓reduceIte, value_of_cons]
        rcases hshape with ⟨hv, hr⟩ | ⟨x, kept, younger, hrest, hpos, hlt, hv, hr⟩
        · exact .inl ⟨by omega, hr⟩
        · exact .inr ⟨x, kept, younger, hrest, hpos, hlt, by omega, hr⟩
      · let part := min (Rounding.halfUp (l.valuePaise * left / l.quantity)) l.valuePaise
        have hkept : 0 < l.quantity - left := by linarith [not_le.mp hwhole]
        have hless : l.quantity - left < l.quantity := by linarith [not_le.mp hdone]
        refine ⟨[], l :: ls, rfl, .inr ⟨l, ⟨l.quantity - left, l.valuePaise - part⟩, ls, rfl,
          hkept, hless, ?_, ?_⟩⟩
        · simp [takeOldest, hdone, hwhole, take_oldest_done, part]
        · simp [takeOldest, hdone, hwhole, take_oldest_done, part]

/-- The issue goes uncovered by what it asks over the stock there is. -/
theorem take_oldest_short (ls : List Layer) (left : ℚ) (h : NonnegLayers ls) (hl : 0 ≤ left) :
    (takeOldest ls left).uncoveredQuantity = max 0 (left - quantityOf ls) := by
  induction ls generalizing left with
  | nil => simp [takeOldest]
  | cons l ls ih =>
    have hq := (h l (by simp)).1
    have hrest := h.tail.quantity_nonneg
    by_cases hdone : left ≤ 0
    · rw [take_oldest_done _ _ hdone, quantity_of_cons, max_eq_left (by linarith)]
    · by_cases hwhole : l.quantity ≤ left
      · have hstep := ih (left - l.quantity) h.tail (by linarith)
        simp only [takeOldest, hdone, hwhole, ↓reduceIte, quantity_of_cons, hstep]
        congr 1
        ring
      · have hover := not_le.mp hwhole
        simp only [takeOldest, hdone, hwhole, ↓reduceIte, take_oldest_done ls 0 le_rfl,
          quantity_of_cons]
        rw [max_eq_left (by linarith)]

/-- No layer that stays behind is worth less than nothing, and one that stays behind empty was
empty before. -/
theorem take_oldest_kept (ls : List Layer) (left : ℚ) (h : NonnegLayers ls) :
    ∀ l ∈ (takeOldest ls left).remaining,
      0 ≤ l.valuePaise ∧ (0 < l.quantity ∨ (l.quantity = 0 ∧ l ∈ ls)) := by
  have huntouched : ∀ ls, NonnegLayers ls → ∀ l ∈ ls,
      0 ≤ l.valuePaise ∧ (0 < l.quantity ∨ (l.quantity = 0 ∧ l ∈ ls)) := by
    intro ls h l hl
    refine ⟨(h l hl).2, ?_⟩
    rcases (h l hl).1.lt_or_eq with hpos | hzero
    · exact .inl hpos
    · exact .inr ⟨hzero.symm, hl⟩
  have hweaker : ∀ {a : Layer} {ls : List Layer} {l : Layer},
      (0 ≤ l.valuePaise ∧ (0 < l.quantity ∨ (l.quantity = 0 ∧ l ∈ ls))) →
      0 ≤ l.valuePaise ∧ (0 < l.quantity ∨ (l.quantity = 0 ∧ l ∈ a :: ls)) :=
    fun h => ⟨h.1, h.2.imp_right fun h => ⟨h.1, List.mem_cons_of_mem _ h.2⟩⟩
  induction ls generalizing left with
  | nil => simp [takeOldest]
  | cons l ls ih =>
    by_cases hdone : left ≤ 0
    · rw [take_oldest_done _ _ hdone]
      exact huntouched _ h
    · by_cases hwhole : l.quantity ≤ left
      · simp only [takeOldest, hdone, hwhole, ↓reduceIte]
        exact fun x hx => hweaker (ih (left - l.quantity) h.tail x hx)
      · simp only [takeOldest, hdone, hwhole, ↓reduceIte, take_oldest_done ls 0 le_rfl]
        intro x hx
        rcases List.mem_cons.mp hx with rfl | hx
        · have := min_le_right (Rounding.halfUp (l.valuePaise * left / l.quantity)) l.valuePaise
          exact ⟨by dsimp only; omega, .inl (by simpa using not_le.mp hwhole)⟩
        · exact hweaker (huntouched ls h.tail x hx)

theorem NonnegLayers.remaining (h : NonnegLayers ls) (left : ℚ) :
    NonnegLayers (takeOldest ls left).remaining := by
  intro l hl
  obtain ⟨hv, hq⟩ := take_oldest_kept ls left h l hl
  rcases hq with hpos | ⟨hzero, -⟩
  · exact ⟨hpos.le, hv⟩
  · exact ⟨hzero.ge, hv⟩

/-- Empty layers that are left of what an issue left were there before the issue. -/
theorem kept_before {left : List Layer}
    (hkept : ∀ l ∈ left, l.quantity = 0 ∧ l ∈ (takeOldest ls q).remaining)
    (h : NonnegLayers ls) : ∀ l ∈ left, l.quantity = 0 ∧ l ∈ ls := by
  intro l hl
  obtain ⟨hzero, hm⟩ := hkept l hl
  rcases (take_oldest_kept ls q h l hm).2 with hpos | hthere
  · rw [hzero] at hpos
    exact absurd hpos (lt_irrefl 0)
  · exact hthere

theorem consume_of_pos (ls : List Layer) (h : 0 < q) : consume ls q = .ok (takeOldest ls q) :=
  if_neg (not_le.mpr h)

/-- A run of issues keeps the value there is, and one that asks for everything leaves nothing
but layers that were empty from the start. -/
theorem issues_value (qs : List ℚ) (hqs : ∀ q ∈ qs, 0 < q) (h : NonnegLayers ls) :
    ∃ taken left, issues ls qs = .ok (taken, left) ∧ taken + valueOf left = valueOf ls ∧
      (quantityOf ls ≤ qs.sum → ∀ l ∈ left, l.quantity = 0 ∧ l ∈ ls) := by
  induction qs generalizing ls with
  | nil =>
    refine ⟨0, ls, rfl, by simp, ?_⟩
    intro hall l hl
    exact ⟨h.all_empty (by simpa using hall) l hl, hl⟩
  | cons q qs ih =>
    have hq := hqs q (by simp)
    obtain ⟨taken, left, hrun, hvalue, hempty⟩ :=
      ih (fun x hx => hqs x (by simp [hx])) (h.remaining q)
    refine ⟨(takeOldest ls q).valuePaise + taken, left, ?_, ?_, ?_⟩
    · simp [issues, consume_of_pos ls hq, hrun, bind, Except.bind]
    · have := take_oldest_value ls q
      omega
    · intro hall
      refine kept_before (hempty ?_) h
      have hleft := take_oldest_quantity ls q hq.le
      have hshort := take_oldest_short ls q h hq.le
      have hsum : (0 : ℚ) ≤ qs.sum := List.sum_nonneg fun x hx => (hqs x (by simp [hx])).le
      rw [List.sum_cons] at hall
      have : (takeOldest ls q).uncoveredQuantity ≤ q - quantityOf ls + qs.sum := by
        rw [hshort]
        exact max_le (by linarith) (by linarith)
      linarith

/-- The issue a FIFO consumption makes: nothing of the stock or of its value is lost. -/
structure Conserved (layers : List Layer) (quantity : ℚ) (issue : Issue) : Prop where
  oldest : OldestFirst layers issue
  quantity_kept : (quantity - issue.uncoveredQuantity) + quantityOf issue.remaining =
    quantityOf layers
  value_kept : issue.valuePaise + valueOf issue.remaining = valueOf layers
  short : issue.uncoveredQuantity = max 0 (quantity - quantityOf layers)
  kept : ∀ l ∈ issue.remaining,
    0 ≤ l.valuePaise ∧ (0 < l.quantity ∨ (l.quantity = 0 ∧ l ∈ layers))

theorem take_oldest_conserved (h : NonnegLayers ls) (hq : 0 < q) :
    Conserved ls q (takeOldest ls q) where
  oldest := take_oldest_first ls q
  quantity_kept := by
    have := take_oldest_quantity ls q hq.le
    linarith
  value_kept := take_oldest_value ls q
  short := take_oldest_short ls q h hq.le
  kept := take_oldest_kept ls q h

/-- Every issue of a positive quantity conserves stock and value, no other is made, and issues
that ask for everything between them take out the whole value of layers none of which is
empty. -/
theorem consumption_conserves (layers : List Layer) (h : NonnegLayers layers) :
    (∀ q ≤ 0, consume layers q =
      .error (.valueError "An issue must be of a positive quantity.")) ∧
    (∀ q > 0, ∃ issue, consume layers q = .ok issue ∧ Conserved layers q issue) ∧
    ∀ qs : List ℚ, (∀ q ∈ qs, 0 < q) →
      ∃ taken left, issues layers qs = .ok (taken, left) ∧
        taken + valueOf left = valueOf layers ∧
        (quantityOf layers ≤ qs.sum →
          (∀ l ∈ left, l.quantity = 0 ∧ l ∈ layers) ∧
          (Stocked layers → left = [] ∧ taken = valueOf layers)) := by
  refine ⟨fun q hq => if_pos hq, fun q hq => ?_, fun qs hqs => ?_⟩
  · exact ⟨takeOldest layers q, consume_of_pos layers hq, take_oldest_conserved h hq⟩
  · obtain ⟨taken, left, hrun, hvalue, hempty⟩ := issues_value qs hqs h
    refine ⟨taken, left, hrun, hvalue, fun hall => ⟨hempty hall, fun hstocked => ?_⟩⟩
    have hnone : left = [] := by
      refine List.eq_nil_iff_forall_not_mem.mpr fun l hl => ?_
      obtain ⟨hzero, hm⟩ := hempty hall l hl
      have := hstocked l hm
      linarith
    subst hnone
    exact ⟨rfl, by simpa using hvalue⟩

/-- Five units for a rupee, and behind them a layer of none that is worth seven paise. -/
def withEmptyLayer : List Layer := [⟨5, 100⟩, ⟨0, 7⟩]

/-- An issue of the whole stock leaves an empty layer behind it with its value, and an issue of
nothing is refused. -/
theorem empty_layer_left : NonnegLayers withEmptyLayer ∧
    consume withEmptyLayer 5 = .ok ⟨100, [⟨0, 7⟩], 0⟩ ∧
    quantityOf withEmptyLayer = 5 ∧ valueOf withEmptyLayer = 107 ∧
    consume withEmptyLayer 0 =
      .error (.valueError "An issue must be of a positive quantity.") := by
  refine ⟨by simp [NonnegLayers, withEmptyLayer], ?_, ?_, ?_, ?_⟩
  all_goals decide +kernel

theorem consumption_conserves_two : NonnegLayers [⟨3, 100⟩, ⟨2, 50⟩] ∧
    ∃ taken left, issues [⟨3, 100⟩, ⟨2, 50⟩] [1, 1, 3] = .ok (taken, left) ∧
      left = [] ∧ taken = 150 := by
  have hlayers : NonnegLayers [⟨3, 100⟩, ⟨2, 50⟩] := by simp [NonnegLayers]
  obtain ⟨taken, left, hrun, -, hall⟩ :=
    (consumption_conserves [⟨3, 100⟩, ⟨2, 50⟩] hlayers).2.2 [1, 1, 3] (by simp)
  obtain ⟨hleft, htaken⟩ := (hall (by norm_num [quantityOf])).2 (by simp [Stocked])
  exact ⟨hlayers, taken, left, hrun, hleft, by simpa using htaken⟩

end Caflow.Inventory
