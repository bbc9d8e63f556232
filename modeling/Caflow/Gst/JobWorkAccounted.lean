import Caflow.Gst.Itc04

namespace Caflow.Gst.Itc04
open Calendar Tally

/-- The challans, lines and returns of a client. A return is recorded on the challan of its line. -/
structure Books where
  challans : List Challan
  lines : List Line
  returns : List GoodsReturn
  challanIds : (challans.map (·.id)).Nodup
  lineIds : (lines.map (·.id)).Nodup
  returnIds : (returns.map (·.id)).Nodup
  ownChallan : ∀ r ∈ returns, ∀ ln ∈ lines, ln.id = r.challanLineId → ln.challanId = r.challanId

variable {b : Books} {ch : Challan} {ln : Line} {r : GoodsReturn} {w : Window} {asAt : Day}

/-- A line of a challan that was sent for job work. -/
structure Sent (b : Books) (ch : Challan) (ln : Line) : Prop where
  challan : ch ∈ b.challans
  jobWork : isJobWorkSent ch = true
  line : ln ∈ b.lines
  own : ln.challanId = ch.id

def Books.table5a (b : Books) (w : Window) : List Row :=
  Itc04.table5a b.challans b.lines b.returns w

/-- What Table 5A declares for a line in a window. -/
def Books.declared (b : Books) (lineId : String) (w : Window) : ℤ :=
  tally ((b.table5a w).map fun row => (row.challanLineId, row.quantity)) lineId

/-- What the balances report outstanding on a line, nothing where they report none. -/
def Books.outstanding (b : Books) (lineId : String) (asAt : Day) : ℤ :=
  tally (((balances b.challans b.lines b.returns asAt).flatMap (·.lines)).map fun l =>
    (l.challanLineId, l.outstanding)) lineId

/-- How often a return stands in the table of a window. -/
def Books.timesDeclared (b : Books) (r : GoodsReturn) (w : Window) : ℕ :=
  (b.table5a w).countP (·.ofReturn = some r.id)

/-- The challans that were sent, under their ids. -/
def Books.sent (b : Books) : List (String × Challan) :=
  (b.challans.filter (isJobWorkSent ·)).map fun c => (c.id, c)

def Books.byLine (b : Books) : List (String × Line) := b.lines.map fun l => (l.id, l)

theorem Books.sent_keyed (b : Books) : Dict.Keyed b.sent := by
  rw [Dict.Keyed, Books.sent, List.map_map]
  exact b.challanIds.sublist (List.filter_sublist.map _)

theorem Books.by_line_keyed (b : Books) : Dict.Keyed b.byLine := by
  rw [Dict.Keyed, Books.byLine, List.map_map]
  exact b.lineIds

theorem Books.get_sent : Dict.get b.sent name = some ch ↔
    ch ∈ b.challans ∧ isJobWorkSent ch = true ∧ ch.id = name := by
  rw [Dict.get_some b.sent_keyed, Books.sent, List.mem_map]
  constructor
  · rintro ⟨c, hc, heq⟩
    cases heq
    obtain ⟨hmem, hsent⟩ := List.mem_filter.mp hc
    exact ⟨hmem, by simpa using hsent, rfl⟩
  · rintro ⟨hmem, hsent, rfl⟩
    exact ⟨ch, List.mem_filter.mpr ⟨hmem, by simpa using hsent⟩, rfl⟩

theorem Books.get_line : Dict.get b.byLine name = some ln ↔ ln ∈ b.lines ∧ ln.id = name := by
  rw [Dict.get_some b.by_line_keyed, Books.byLine, List.mem_map]
  constructor
  · rintro ⟨l, hl, heq⟩
    cases heq
    exact ⟨hl, rfl⟩
  · rintro ⟨hl, rfl⟩
    exact ⟨ln, hl, rfl⟩

/-- The rows of a window, in an order that does not matter to any sum over them. -/
theorem rows_perm (b : Books) (w : Window) :
    (b.table5a w).Perm (b.returns.filterMap (itemisedRow b.sent b.byLine w) ++
      b.sent.flatMap fun c => if w.contains c.2.receivedBackOn then
        (linesOf b.lines c.1).filterMap (restRow b.returns c.2) else []) := by
  have hsent := Dict.from_pairs_keyed b.sent_keyed
  have hline := Dict.from_pairs_keyed b.by_line_keyed
  unfold Books.sent at hsent
  unfold Books.byLine at hline
  unfold Books.table5a table5a
  simp only [hsent, hline]
  refine (List.perm_insertionSort _ _).trans ?_
  exact ((List.perm_insertionSort _ _).filterMap _).append_right _

/-- What rows come to under a key, return by return and challan by challan. -/
theorem tally_rows {κ M : Type} [DecidableEq κ] [AddCommMonoid M] (b : Books) (w : Window)
    (pair : Row → κ × M) (k : κ) :
    tally ((b.table5a w).map pair) k =
      (b.returns.map fun r => (itemisedRow b.sent b.byLine w r).elim 0 fun row =>
        if (pair row).1 = k then (pair row).2 else 0).sum +
      (b.sent.map fun c => if w.contains c.2.receivedBackOn then
        tally (((linesOf b.lines c.1).filterMap (restRow b.returns c.2)).map pair) k else 0).sum := by
  rw [tally_perm ((rows_perm b w).map pair), List.map_append, tally_append, tally_filter_map,
    List.map_flatMap, tally_flat_map]
  congr 2
  apply List.map_congr_left
  intro c _
  split
  · rfl
  · rfl

/-- A return makes a row of its own line, in the window it is dated in. -/
theorem itemised_own (h : Sent b ch ln) (hr : r ∈ b.returns) (hof : r.challanLineId = ln.id) :
    itemisedRow b.sent b.byLine w r =
      if w.contains r.returnedOn then some (returnRow ch ln r) else none := by
  have howner := (b.ownChallan r hr ln h.line hof.symm).symm.trans h.own
  have hch : Dict.get b.sent r.challanId = some ch :=
    Books.get_sent.mpr ⟨h.challan, h.jobWork, howner.symm⟩
  have hln : Dict.get b.byLine r.challanLineId = some ln := Books.get_line.mpr ⟨h.line, hof.symm⟩
  unfold itemisedRow
  rw [hch, hln]

theorem itemised_line (h : itemisedRow b.sent b.byLine w r = some row) :
    row.challanLineId = r.challanLineId ∧ row.ofReturn = some r.id := by
  unfold itemisedRow at h
  cases hch : Dict.get b.sent r.challanId with
  | none =>
    rw [hch] at h
    cases h
  | some ch =>
    cases hln : Dict.get b.byLine r.challanLineId with
    | none =>
      rw [hch, hln] at h
      cases h
    | some ln =>
      simp only [hch, hln] at h
      split at h
      · cases h
        exact ⟨(Books.get_line.mp hln).2, rfl⟩
      · cases h

theorem rest_line (h : restRow b.returns ch ln = some row) :
    row.challanLineId = ln.id ∧ row.ofReturn = none := by
  unfold restRow at h
  simp only at h
  split at h
  · cases h
  · cases h
    exact ⟨rfl, rfl⟩

theorem mem_lines_of {lines : List Line} {name : String} :
    ln ∈ linesOf lines name ↔ ln ∈ lines ∧ ln.challanId = name := by
  rw [linesOf, (List.perm_insertionSort _ _).mem_iff, List.mem_filter, decide_eq_true_eq]

theorem lines_of_nodup (b : Books) (name : String) : (linesOf b.lines name).Nodup :=
  (List.perm_insertionSort _ _).nodup_iff.mpr (b.lineIds.of_map.filter _)

theorem line_of_id (b : Books) {ln ln' : Line} (h : ln ∈ b.lines) (h' : ln' ∈ b.lines)
    (hid : ln'.id = ln.id) : ln' = ln := List.inj_on_of_nodup_map b.lineIds h' h hid

theorem challan_of_id (b : Books) {ch ch' : Challan} (h : ch ∈ b.challans) (h' : ch' ∈ b.challans)
    (hid : ch'.id = ch.id) : ch' = ch := List.inj_on_of_nodup_map b.challanIds h' h hid

/-- What answers line by line comes to for a line, over the lines of its challan. -/
theorem tally_lines (h : Sent b ch ln) {β : Type} (answer : Line → Option β) (name : β → String)
    (amount : β → ℤ) (hname : ∀ ln y, answer ln = some y → name y = ln.id) :
    tally (((linesOf b.lines ch.id).filterMap answer).map fun y => (name y, amount y)) ln.id =
      (answer ln).elim 0 amount := by
  rw [tally_filter_map, sum_only (lines_of_nodup b ch.id) (mem_lines_of.mpr ⟨h.line, h.own⟩)]
  · cases hy : answer ln with
    | none => rfl
    | some y => exact if_pos (hname ln y hy)
  · intro ln' hln' hne
    cases hy : answer ln' with
    | none => rfl
    | some y =>
      refine if_neg fun hid => hne ?_
      exact line_of_id b h.line (mem_lines_of.mp hln').1 ((hname ln' y hy).symm.trans hid)

/-- On the lines of another challan nothing stands for the line. -/
theorem tally_other_lines (h : Sent b ch ln) {name' : String} (hother : name' ≠ ch.id) {β : Type}
    (answer : Line → Option β) (name : β → String) (amount : β → ℤ)
    (hname : ∀ ln y, answer ln = some y → name y = ln.id) :
    tally (((linesOf b.lines name').filterMap answer).map fun y => (name y, amount y)) ln.id = 0 := by
  apply tally_absent
  intro p hp hid
  obtain ⟨y, hy, rfl⟩ := List.mem_map.mp hp
  obtain ⟨ln', hln', hanswer⟩ := List.mem_filterMap.mp hy
  obtain ⟨hmem, hof⟩ := mem_lines_of.mp hln'
  have hsame := line_of_id b h.line hmem ((hname ln' y hanswer).symm.trans hid)
  subst hsame
  exact hother (hof.symm.trans h.own)

theorem rest_quantity (b : Books) (ch : Challan) (ln : Line) :
    (restRow b.returns ch ln).elim 0 (·.quantity) =
      max 0 (ln.quantity - quantityOf (returnsOf b.returns ln.id)) := by
  unfold restRow
  simp only
  split
  · rename_i hle
    exact (max_eq_left hle).symm
  · rename_i hpos
    exact (max_eq_right (not_le.mp hpos).le).symm

/-- A window declares the returns dated in it, and the rest where the whole challan came back in
it. -/
theorem declared_eq (h : Sent b ch ln) (w : Window) :
    b.declared ln.id w =
      ((returnsOf b.returns ln.id).map fun r =>
        if w.contains r.returnedOn then (r.quantityReturned : ℤ) else 0).sum +
      if w.contains ch.receivedBackOn then
        max 0 (ln.quantity - quantityOf (returnsOf b.returns ln.id)) else 0 := by
  rw [Books.declared, tally_rows]
  congr 1
  · rw [returnsOf, sum_filter]
    apply congrArg
    apply List.map_congr_left
    intro r hr
    by_cases hof : r.challanLineId = ln.id
    · rw [itemised_own h hr hof, if_pos hof]
      split
      · exact if_pos rfl
      · rfl
    · rw [if_neg hof]
      cases hrow : itemisedRow b.sent b.byLine w r with
      | none => rfl
      | some row => exact if_neg fun hid => hof ((itemised_line hrow).1.symm.trans hid)
  · have hmem : (ch.id, ch) ∈ b.sent :=
      (Dict.get_some b.sent_keyed).mp (Books.get_sent.mpr ⟨h.challan, h.jobWork, rfl⟩)
    rw [sum_only b.sent_keyed.of_map hmem]
    · rw [tally_lines h _ _ _ fun _ _ hrow => (rest_line hrow).1, rest_quantity]
    · rintro ⟨name, c⟩ hc hne
      have hget := Books.get_sent.mp ((Dict.get_some b.sent_keyed).mpr hc)
      have hother : name ≠ ch.id := by
        intro hid
        have hsame := challan_of_id b h.challan hget.1 (hget.2.2.trans hid)
        exact hne (by rw [hid, hsame])
      split
      · exact tally_other_lines h hother _ _ _ fun _ _ hrow => (rest_line hrow).1
      · rfl

theorem balance_line_id (h : balanceLine b.returns asAt ln = some l) : l.challanLineId = ln.id := by
  unfold balanceLine at h
  simp only at h
  split at h
  · cases h
  · cases h
    rfl

/-- A challan that the client said is back. -/
def Challan.saidBack (ch : Challan) : Bool :=
  ch.receivedBackOn.isSome || ch.status = .receivedBack

/-- What the balance of a challan reports is read off its lines. -/
theorem balance_tally (b : Books) (asAt : Day) {c : Challan} (hc : isJobWorkSent c = true)
    (k : String) :
    ((balanceOf b.lines b.returns asAt c).elim 0 fun balance =>
      tally (balance.lines.map fun l => (l.challanLineId, l.outstanding)) k) =
    if c.saidBack then 0 else
      tally (((linesOf b.lines c.id).filterMap (balanceLine b.returns asAt)).map fun l =>
        (l.challanLineId, l.outstanding)) k := by
  have hskip : (!isJobWorkSent c || c.receivedBackOn.isSome || c.status = .receivedBack) =
      c.saidBack := by
    simp [hc, Challan.saidBack]
  simp only [balanceOf, hskip]
  by_cases hback : c.saidBack = true
  · rw [if_pos hback, if_pos hback]
    rfl
  · rw [if_neg hback, if_neg hback]
    split
    · rename_i hnil
      rw [hnil]
      rfl
    · rfl

theorem outstanding_eq (h : Sent b ch ln) (asAt : Day) :
    b.outstanding ln.id asAt =
      if ch.saidBack then 0 else
        max 0 (ln.quantity - quantityOf (returnsBy (returnsOf b.returns ln.id) asAt)) := by
  have hline : (balanceLine b.returns asAt ln).elim 0 (·.outstanding) =
      max 0 (ln.quantity - quantityOf (returnsBy (returnsOf b.returns ln.id) asAt)) := by
    unfold balanceLine
    simp only
    split
    · rename_i hle
      exact (max_eq_left hle).symm
    · rename_i hpos
      exact (max_eq_right (not_le.mp hpos).le).symm
  unfold Books.outstanding balances
  rw [List.map_flatMap, tally_flat_map, Tally.sum_filter_map,
    ((List.perm_insertionSort _ _).map _).sum_eq, sum_only b.challanIds.of_map h.challan]
  · rw [balance_tally b asAt h.jobWork, tally_lines h _ _ _ fun _ _ hl => balance_line_id hl, hline]
  · intro c hc hne
    have hother : c.id ≠ ch.id := fun hid => hne (challan_of_id b h.challan hc hid)
    cases hsent : isJobWorkSent c with
    | false => simp [balanceOf, hsent]
    | true =>
      rw [balance_tally b asAt hsent, tally_other_lines h hother _ _ _ fun _ _ hl =>
        balance_line_id hl, ite_self]

/-- Windows that hold every day up to a date once and no day after it. -/
def Tiles (windows : List Window) (asAt : Day) : Prop :=
  ∀ day : Day, windows.countP (·.contains (some day)) = if day ≤ asAt then 1 else 0

theorem sum_contains (windows : List Window) (day : Option Day) (x : ℤ) :
    (windows.map fun w => if w.contains day then x else 0).sum =
      windows.countP (·.contains day) * x := by
  induction windows with
  | nil => simp
  | cons w windows ih =>
    rw [List.map_cons, List.sum_cons, ih, List.countP_cons]
    split
    · push_cast
      ring
    · simp

theorem tiles_sum {windows : List Window} (h : Tiles windows asAt) (day : Option Day) (x : ℤ) :
    (windows.map fun w => if w.contains day then x else 0).sum =
      if day.any (· ≤ asAt) then x else 0 := by
  rw [sum_contains]
  cases day with
  | none => simp [Window.contains]
  | some day =>
    rw [h day]
    by_cases hday : day ≤ asAt
    · simp [hday]
    · simp [hday]

/-- The returns dated up to a day. -/
def datedBy (returns : List GoodsReturn) (asAt : Day) : List GoodsReturn :=
  returns.filter fun r => r.returnedOn.any (· ≤ asAt)

theorem tiles_returns {windows : List Window} (h : Tiles windows asAt)
    (returns : List GoodsReturn) :
    (windows.map fun w => (returns.map fun r =>
      if w.contains r.returnedOn then (r.quantityReturned : ℤ) else 0).sum).sum =
    quantityOf (datedBy returns asAt) := by
  induction returns with
  | nil => simp [quantityOf, datedBy]
  | cons r returns ih =>
    simp only [List.map_cons, List.sum_cons, List.sum_map_add]
    rw [ih, tiles_sum h]
    simp only [datedBy, List.filter_cons]
    split
    · rfl
    · exact zero_add _

theorem quantity_split (p : GoodsReturn → Bool) (returns : List GoodsReturn) :
    quantityOf returns = quantityOf (returns.filter p) + quantityOf (returns.filter (!p ·)) := by
  have hperm := (List.filter_append_perm p returns).map fun r => (r.quantityReturned : ℤ)
  rw [quantityOf, ← hperm.sum_eq, List.map_append, List.sum_append]
  rfl

theorem quantity_nonneg (returns : List GoodsReturn) : 0 ≤ quantityOf returns := by
  apply List.sum_nonneg
  intro x hx
  obtain ⟨r, -, rfl⟩ := List.mem_map.mp hx
  exact Int.natCast_nonneg _

theorem quantity_zero {returns : List GoodsReturn} :
    quantityOf returns = 0 ↔ ∀ r ∈ returns, r.quantityReturned = 0 := by
  induction returns with
  | nil => simp [quantityOf]
  | cons r returns ih =>
    have hrest := quantity_nonneg returns
    rw [List.forall_mem_cons, ← ih]
    simp only [quantityOf, List.map_cons, List.sum_cons] at hrest ⊢
    omega

/-- Every quantity of some returns is under those of them that are so. -/
theorem quantity_filter_eq {p : GoodsReturn → Bool} {returns : List GoodsReturn} :
    quantityOf (returns.filter p) = quantityOf returns ↔
      ∀ r ∈ returns, r.quantityReturned ≠ 0 → p r = true := by
  rw [quantity_split p returns, left_eq_add, quantity_zero]
  constructor
  · intro h r hr hq
    by_contra hp
    exact hq (h r (List.mem_filter.mpr ⟨hr, by simpa using hp⟩))
  · intro h r hr
    obtain ⟨hmem, hp⟩ := List.mem_filter.mp hr
    by_contra hq
    simp [h r hmem hq] at hp

/-- When what is stated of a line's return accounts for what was sent. A challan that came back by
the date, or is still out, needs its returns to be dated; one whose day is later or missing needs
them to be everything. -/
def Stated (b : Books) (ch : Challan) (ln : Line) (asAt : Day) : Prop :=
  match ch.receivedBackOn with
  | some back =>
    if back ≤ asAt then
      ∀ r ∈ returnsOf b.returns ln.id, r.quantityReturned ≠ 0 →
        r.returnedOn.any (· ≤ asAt) = true
    else quantityOf (datedBy (returnsOf b.returns ln.id) asAt) = ln.quantity
  | none =>
    if ch.status = .receivedBack then
      quantityOf (datedBy (returnsOf b.returns ln.id) asAt) = ln.quantity
    else
      ∀ r ∈ returnsOf b.returns ln.id, r.quantityReturned ≠ 0 → r.returnedOn ≠ none

theorem windows_declared {windows : List Window} (h : Sent b ch ln) (htiles : Tiles windows asAt) :
    (windows.map (b.declared ln.id)).sum =
      quantityOf (datedBy (returnsOf b.returns ln.id) asAt) +
      if ch.receivedBackOn.any (· ≤ asAt) then
        max 0 (ln.quantity - quantityOf (returnsOf b.returns ln.id)) else 0 := by
  rw [List.map_congr_left fun w _ => declared_eq h w, List.sum_map_add, tiles_returns htiles,
    tiles_sum htiles]

/-- What the windows up to a date declare and what is outstanding then are what was sent, exactly
where the returns are stated. -/
theorem line_accounted_iff {windows : List Window} (h : Sent b ch ln)
    (htiles : Tiles windows asAt)
    (hwithin : quantityOf (returnsOf b.returns ln.id) ≤ ln.quantity) :
    ln.quantity = (windows.map (b.declared ln.id)).sum + b.outstanding ln.id asAt ↔
      Stated b ch ln asAt := by
  rw [windows_declared h htiles, outstanding_eq h, Stated, Challan.saidBack]
  generalize returnsOf b.returns ln.id = returns at hwithin ⊢
  cases hback : ch.receivedBackOn with
  | some back =>
    simp only [Option.isSome_some, Bool.true_or, if_true, add_zero, Option.any_some,
      decide_eq_true_eq]
    split
    · rw [max_eq_right (by omega), ← quantity_filter_eq (p := fun r => r.returnedOn.any (· ≤ asAt)),
        datedBy]
      omega
    · rw [add_zero]
      exact eq_comm
  | none =>
    simp only [Option.isSome_none, Bool.false_or, decide_eq_true_eq, Option.any_none,
      Bool.false_eq_true, if_false, add_zero]
    split
    · rw [add_zero]
      exact eq_comm
    · have hby : datedBy returns asAt =
          (returnsBy returns asAt).filter fun r => r.returnedOn.isSome := by
        rw [datedBy, returnsBy, List.filter_filter]
        apply List.filter_congr
        intro r _
        cases r.returnedOn <;> simp
      have hsplit := quantity_split (fun r => r.returnedOn.all (· ≤ asAt)) returns
      have hlate := quantity_nonneg (returns.filter fun r => !r.returnedOn.all (· ≤ asAt))
      have hiff := @quantity_filter_eq (fun r => r.returnedOn.isSome) (returnsBy returns asAt)
      rw [← hby] at hiff
      have hdated : (∀ r ∈ returns, r.quantityReturned ≠ 0 → r.returnedOn ≠ none) ↔
          ∀ r ∈ returnsBy returns asAt, r.quantityReturned ≠ 0 → r.returnedOn.isSome = true := by
        constructor
        · intro hall r hr hq
          exact Option.ne_none_iff_isSome.mp (hall r (List.mem_of_mem_filter hr) hq)
        · intro hall r hr hq hnone
          have hmem : r ∈ returnsBy returns asAt :=
            List.mem_filter.mpr ⟨hr, by simp [hnone]⟩
          simpa [hnone] using hall r hmem hq
      rw [hdated, ← hiff, max_eq_right]
      · omega
      · unfold returnsBy
        omega

theorem count_as_tally {α κ : Type} [DecidableEq κ] (name : α → κ) (l : List α) (k : κ) :
    l.countP (name · = k) = tally (l.map fun x => (name x, 1)) k := by
  induction l with
  | nil => rfl
  | cons x l ih =>
    rw [List.countP_cons, ih, List.map_cons, tally_cons, add_comm]
    simp

/-- A return stands once in the table of every window its day is in. -/
theorem times_declared (h : Sent b ch ln) (hr : r ∈ b.returns) (hof : r.challanLineId = ln.id)
    (w : Window) : b.timesDeclared r w = if w.contains r.returnedOn then 1 else 0 := by
  rw [Books.timesDeclared, count_as_tally, tally_rows, sum_only b.returnIds.of_map hr,
    List.sum_eq_zero, add_zero, itemised_own h hr hof]
  · split
    · exact if_pos rfl
    · rfl
  · intro x hx
    obtain ⟨c, -, rfl⟩ := List.mem_map.mp hx
    split
    · apply tally_absent
      intro p hp hname
      obtain ⟨row, hrow, rfl⟩ := List.mem_map.mp hp
      obtain ⟨ln', -, hrest⟩ := List.mem_filterMap.mp hrow
      have hnone := (rest_line hrest).2
      rw [show row.ofReturn = some r.id from hname] at hnone
      cases hnone
    · rfl
  · intro r' hr' hne
    cases hrow : itemisedRow b.sent b.byLine w r' with
    | none => rfl
    | some row =>
      refine if_neg fun hid => hne ?_
      have hsame : r'.id = r.id := Option.some.inj ((itemised_line hrow).2.symm.trans hid)
      exact List.inj_on_of_nodup_map b.returnIds hr' hr hsame

/-- The year a day's financial year starts in. -/
def financialYearOf (day : Day) : ℕ := if 4 ≤ day.month then day.year else day.year - 1

theorem first_of_le {year month : ℕ} (hyear : 1 ≤ year) (hmonth : 1 ≤ month ∧ month ≤ 12)
    (day : Day) : firstOf year month hyear hmonth ≤ day ↔
      year < day.year ∨ year = day.year ∧ month ≤ day.month := by
  have := day.day_lt
  have := day.dayPos
  have := day.monthLe
  have := day.monthPos
  rw [le_iff]
  simp only [Day.number, firstOf]
  omega

theorem le_last_of {year month : ℕ} (hyear : 1 ≤ year) (hmonth : 1 ≤ month ∧ month ≤ 12)
    (day : Day) : day ≤ lastOf year month hyear hmonth ↔
      day.year < year ∨ day.year = year ∧ day.month ≤ month := by
  have hlast := (IsoDate.month_days_bounds year month).2
  have hpos := IsoDate.month_days_pos year month
  have := day.day_lt
  have := day.dayPos
  have := day.monthLe
  have := day.monthPos
  have hday := day.dayLe
  rw [le_iff]
  simp only [Day.number, lastOf]
  constructor
  · intro h
    omega
  · rintro (h | ⟨rfl, h⟩)
    · omega
    · by_cases heq : day.month = month
      · subst heq
        omega
      · omega

/-- Of every reading one window of its own financial year holds a day. -/
theorem year_windows (fy : FinancialYear) (cadence : Cadence) (day : Day) :
    (windowsFor fy cadence).countP (·.contains (some day)) =
      if fy.startYear = financialYearOf day then 1 else 0 := by
  have := day.monthLe
  have := day.monthPos
  have := day.yearPos
  cases cadence with
  | quarterly =>
    simp only [windowsFor, fyQuarters, windowOf, Window.contains, List.map_cons, List.map_nil,
      List.countP_cons, List.countP_nil, Option.any_some, first_of_le, le_last_of,
      decide_eq_true_eq, financialYearOf]
    split_ifs <;> omega
  | halfYearly =>
    simp only [windowsFor, windowOf, Window.contains, List.countP_cons, List.countP_nil,
      Option.any_some, first_of_le, le_last_of, decide_eq_true_eq, financialYearOf]
    split_ifs <;> omega
  | annual =>
    simp only [windowsFor, fyBounds, windowOf, Window.contains, List.countP_cons, List.countP_nil,
      Option.any_some, first_of_le, le_last_of, decide_eq_true_eq, financialYearOf]
    split_ifs <;> omega

/-- Every financial year the labels can name, once. -/
def EveryYearOnce (years : List FinancialYear) : Prop :=
  (years.map (·.startYear)).Perm (List.range' 1900 1100)

theorem years_windows {years : List FinancialYear} (h : EveryYearOnce years) (cadence : Cadence)
    (day : Day) :
    (years.flatMap (windowsFor · cadence)).countP (·.contains (some day)) =
      if 1900 ≤ financialYearOf day ∧ financialYearOf day ≤ 2999 then 1 else 0 := by
  have hcount : (years.flatMap (windowsFor · cadence)).countP (·.contains (some day)) =
      (years.map (·.startYear)).count (financialYearOf day) := by
    clear h
    induction years with
    | nil => rfl
    | cons fy years ih =>
      rw [List.flatMap_cons, List.countP_append, ih, year_windows, List.map_cons, List.count_cons,
        add_comm]
      simp only [beq_iff_eq]
  rw [hcount, h.count_eq]
  split
  · rename_i hyear
    exact List.count_eq_one_of_mem List.nodup_range' (List.mem_range'_1.mpr (by omega))
  · rename_i hyear
    exact List.count_eq_zero_of_not_mem fun hmem => hyear (by
      have := List.mem_range'_1.mp hmem
      omega)

/-- What a line sent out is what the windows up to a date declare of it and what is outstanding. -/
def AccountedFor (b : Books) (windows : List Window) (asAt : Day) : Prop :=
  ∀ ch ln, Sent b ch ln →
    ln.quantity = (windows.map (b.declared ln.id)).sum + b.outstanding ln.id asAt

/-- Under every reading a return stands in the table of one window of the financial years. -/
def DeclaredOnce (b : Books) (years : List FinancialYear) : Prop :=
  ∀ ch ln, Sent b ch ln → ∀ r ∈ b.returns, r.challanLineId = ln.id → ∀ cadence,
    ((years.flatMap (windowsFor · cadence)).map (b.timesDeclared r)).sum = 1

/-- A return dated in a financial year that a label can name. -/
def InAYear (r : GoodsReturn) : Prop :=
  ∃ day, r.returnedOn = some day ∧ 1900 ≤ financialYearOf day ∧ financialYearOf day ≤ 2999

theorem declared_once_iff {years : List FinancialYear} (hyears : EveryYearOnce years)
    (h : Sent b ch ln) (hr : r ∈ b.returns) (hof : r.challanLineId = ln.id) (cadence : Cadence) :
    ((years.flatMap (windowsFor · cadence)).map (b.timesDeclared r)).sum = 1 ↔ InAYear r := by
  have hsum : ∀ windows : List Window, (windows.map (b.timesDeclared r)).sum =
      windows.countP (·.contains r.returnedOn) := by
    intro windows
    induction windows with
    | nil => rfl
    | cons w windows ih =>
      rw [List.map_cons, List.sum_cons, ih, times_declared h hr hof, List.countP_cons, add_comm]
  rw [hsum, InAYear]
  cases hday : r.returnedOn with
  | none => simp [Window.contains]
  | some day =>
    rw [years_windows hyears]
    simp

/-- Job-work goods are accounted for exactly where what came back is stated by day: the returns of a
challan still out or back by the date are dated, up to it where the challan is back, and a challan
said to be back on a later day or on none has its returns for all that was sent. -/
theorem goods_accounted_iff (b : Books) (windows : List Window) (years : List FinancialYear)
    (asAt : Day)
    (hwithin : ∀ ln ∈ b.lines, quantityOf (returnsOf b.returns ln.id) ≤ ln.quantity)
    (htiles : Tiles windows asAt) (hyears : EveryYearOnce years) :
    AccountedFor b windows asAt ∧ DeclaredOnce b years ↔
      (∀ ch ln, Sent b ch ln → Stated b ch ln asAt) ∧
      ∀ ch ln, Sent b ch ln → ∀ r ∈ b.returns, r.challanLineId = ln.id → InAYear r := by
  constructor
  · rintro ⟨haccounted, honce⟩
    refine ⟨fun ch ln h => ?_, fun ch ln h r hr hof => ?_⟩
    · exact (line_accounted_iff h htiles (hwithin ln h.line)).mp (haccounted ch ln h)
    · exact (declared_once_iff hyears h hr hof .annual).mp (honce ch ln h r hr hof .annual)
  · rintro ⟨hstated, hyear⟩
    refine ⟨fun ch ln h => ?_, fun ch ln h r hr hof cadence => ?_⟩
    · exact (line_accounted_iff h htiles (hwithin ln h.line)).mpr (hstated ch ln h)
    · exact (declared_once_iff hyears h hr hof cadence).mpr (hyear ch ln h r hr hof)

/-- The financial years the labels can name. -/
def financialYears : List FinancialYear :=
  (List.range' 1900 1100).attach.map fun y =>
    ⟨toString y.1 ++ "-" ++ String.ofList (IsoDate.digits 2 (y.1 + 1)), y.1, by
      have := List.mem_range'_1.mp y.2
      omega⟩

theorem financial_years_once : EveryYearOnce financialYears := by
  rw [EveryYearOnce, financialYears, List.map_map]
  exact List.Perm.of_eq (List.attach_map_subtype_val _)

/-- One window from the first day there is. -/
def untilDay (asAt : Day) : List Window :=
  [windowOf .annual "" "" (firstOf 1 1 IsoDate.one_le_one january) asAt]

theorem until_tiles (asAt : Day) : Tiles (untilDay asAt) asAt := by
  intro day
  have hfirst : firstOf 1 1 IsoDate.one_le_one january ≤ day := by
    have := day.yearPos
    have := day.monthPos
    rw [first_of_le]
    omega
  simp [untilDay, windowOf, Window.contains, hfirst]

def sentJuly (status : Status) (back : Option Day) : Challan :=
  ⟨"C", "JW/002", .of 2026 7 5, .jobWork, status, some .capitalGoods, back, "Precision Castings",
    "29BBBBB1111B1ZR", "29"⟩

def dieSet : Line := ⟨"L", "C", 0, "Die set", 10000, 5000000⟩

/-- A challan of one line, as it stands after some returns. -/
def oneChallan (status : Status) (back : Option Day) (returns : List GoodsReturn)
    (hids : (returns.map (·.id)).Nodup) (hown : ∀ r ∈ returns, r.challanId = "C") : Books where
  challans := [sentJuly status back]
  lines := [dieSet]
  returns
  challanIds := List.nodup_singleton _
  lineIds := List.nodup_singleton _
  returnIds := hids
  ownChallan := by
    intro r hr ln hln _
    rw [List.mem_singleton.mp hln, hown r hr]
    rfl

def august20 : Day := .of 2026 8 20

def october1 : Day := .of 2026 10 1

def partReturned : Books :=
  oneChallan .issued none [⟨"R", "C", "L", some august20, 4000, 0, some "JW/22", none, some "Machining"⟩]
    (by decide) (by decide)

theorem part_returned_accounted :
    AccountedFor partReturned (untilDay october1) october1 ∧
      DeclaredOnce partReturned financialYears := by
  refine (goods_accounted_iff partReturned (untilDay october1) financialYears october1 ?_
    (until_tiles _) financial_years_once).mpr ⟨fun ch ln h => ?_, fun ch ln h r hr _ => ?_⟩
  · decide
  · obtain rfl := List.mem_singleton.mp h.challan
    obtain rfl := List.mem_singleton.mp h.line
    simp only [Stated, sentJuly, reduceCtorEq, if_false]
    intro r hr _
    rw [List.mem_singleton.mp (List.mem_of_mem_filter hr)]
    exact Option.some_ne_none _
  · obtain rfl := List.mem_singleton.mp hr
    exact ⟨august20, rfl, by decide, by decide⟩

/-- A challan wholly back in October is nowhere in August: the balances pass over it and no window
declares it yet. -/
theorem later_return_vanishes :
    ¬ ∀ (b : Books) (windows : List Window) (years : List FinancialYear) (asAt : Day),
      (∀ ln ∈ b.lines, quantityOf (returnsOf b.returns ln.id) ≤ ln.quantity) →
      Tiles windows asAt → EveryYearOnce years →
      AccountedFor b windows asAt ∧ DeclaredOnce b years := by
  intro h
  let b := oneChallan .receivedBack (some october1) [] (by decide) (by decide)
  have hwithin : ∀ ln ∈ b.lines, quantityOf (returnsOf b.returns ln.id) ≤ ln.quantity := by decide
  have hsent : Sent b (sentJuly .receivedBack (some october1)) dieSet :=
    ⟨by decide, by decide, by decide, by decide⟩
  have haccounted := (h b (untilDay august20) financialYears august20 hwithin (until_tiles _)
    financial_years_once).1 _ _ hsent
  have hstated := (line_accounted_iff hsent (until_tiles _) (hwithin _ hsent.line)).mp haccounted
  simp only [Stated, sentJuly] at hstated
  revert hstated
  decide

end Caflow.Gst.Itc04
