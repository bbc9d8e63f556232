import Caflow.Gst.Utilisation
import Caflow.Lib.RunningBalance

set_option linter.all false

namespace Caflow.Gst.CreditChain
open SetOff RunningBalance

/-- One return window of a registration, and the opening balance keyed for it, if any. -/
structure Window where
  inputs : Gstr3bInputs
  windowStart : Day
  windowEnd : Day
  period : String
  status : String
  recorded : Option RecordedOpening

/-- A return as it is computed and saved. -/
structure Saved where
  result : Gstr3bResult
  row : Columns

/-- Compute a window's return from the balance it opens with, and save its credit ledger. -/
def prepare (w : Window) (previous : Option PreviousClosing) : Except Failure Saved := do
  let opening := resolveOpening w.windowStart previous w.recorded
  let result := computeGstr3b { w.inputs with openingCredit := some opening.balance }
  let closing ← creditBalance (fun h => .paise (result.closing h))
  let row ← statementColumns (some (ledgerBlock opening closing w.windowEnd))
  return ⟨result, row⟩

/-- Windows one after the other, each opening from the row the one before it saved. -/
def prepareAll : List Window → Option PreviousClosing → Except Failure (List Saved)
  | [], _ => .ok []
  | w :: ws, previous => do
    let saved ← prepare w previous
    let rest ← prepareAll ws (some (previousClosing saved.row w.period w.status))
    return saved :: rest

/-- A return is never refused, and its row says what it opened with and left. -/
theorem prepare_ok (w : Window) (previous : Option PreviousClosing) :
    ∃ saved, prepare w previous = .ok saved ∧
      saved.row.creditOpening = (resolveOpening w.windowStart previous w.recorded).balance ∧
      saved.result.opening = saved.row.creditOpening.paise ∧
      saved.result.closing = saved.row.creditClosing.paise ∧
      Settled mayPay (saved.result.itcNet + saved.result.opening) saved.result.liability
        saved.result.pools := by
  let opening := resolveOpening w.windowStart previous w.recorded
  let result := computeGstr3b { w.inputs with openingCredit := some opening.balance }
  have hsettled : Settled mayPay (result.itcNet + result.opening) result.liability result.pools :=
    gstr3b_settled _
  let closing : CreditBalance := ⟨result.closing, hsettled.credit_nonneg⟩
  refine ⟨⟨result, opening.balance, closing, w.windowEnd, opening.source⟩, ?_, rfl, rfl, rfl,
    hsettled⟩
  have hbalance : creditBalance (fun h => .paise (result.closing h)) = .ok closing :=
    credit_balance_ok hsettled.credit_nonneg
  have hrow := statement_columns_block opening closing w.windowEnd
  unfold prepare
  dsimp only
  rw [hbalance]
  change (do
    let row ← statementColumns (some (ledgerBlock opening closing w.windowEnd))
    return (⟨result, row⟩ : Saved)) = _
  rw [hrow]
  rfl

theorem prepare_all_ok (ws : List Window) (previous : Option PreviousClosing) :
    ∃ saved, prepareAll ws previous = .ok saved ∧ saved.length = ws.length ∧
      ∀ s ∈ saved, s.result.opening = s.row.creditOpening.paise ∧
        s.result.closing = s.row.creditClosing.paise ∧
        Settled mayPay (s.result.itcNet + s.result.opening) s.result.liability s.result.pools := by
  induction ws generalizing previous with
  | nil => exact ⟨[], rfl, rfl, by simp⟩
  | cons w ws ih =>
    obtain ⟨s, hs, -, hopening, hclosing, hsettled⟩ := prepare_ok w previous
    obtain ⟨rest, hrest, hlength, hall⟩ :=
      ih (some (previousClosing s.row w.period w.status))
    refine ⟨s :: rest, ?_, congrArg (· + 1) hlength, ?_⟩
    · rw [prepareAll, hs]
      change (do
        let rest ← prepareAll ws _
        return s :: rest) = _
      rw [hrest]
      rfl
    · intro t ht
      rcases List.mem_cons.mp ht with rfl | ht
      · exact ⟨hopening, hclosing, hsettled⟩
      · exact hall t ht

/-- The later return opened with the balance the earlier one left. -/
def Carries (earlier later : Saved) : Prop :=
  later.row.creditOpening.paise = earlier.row.creditClosing.paise

theorem prepare_all_cons (h : prepareAll (w :: ws) previous = .ok saved) :
    ∃ s rest, saved = s :: rest ∧ prepare w previous = .ok s ∧
      prepareAll ws (some (previousClosing s.row w.period w.status)) = .ok rest := by
  unfold prepareAll at h
  cases hs : prepare w previous with
  | error e => rw [hs] at h; cases h
  | ok s =>
    cases hrest : prepareAll ws (some (previousClosing s.row w.period w.status)) with
    | error e =>
      rw [hs] at h
      change (do
        let rest ← prepareAll ws _
        return s :: rest) = _ at h
      rw [hrest] at h
      cases h
    | ok rest =>
      rw [hs] at h
      change (do
        let rest ← prepareAll ws _
        return s :: rest) = _ at h
      rw [hrest] at h
      cases h
      exact ⟨s, rest, rfl, rfl, hrest⟩

/-- Where nothing is keyed for the later windows, every return opens with the last closing. -/
theorem unrecorded_carries (hnone : ∀ v ∈ ws, v.recorded = none)
    (h : prepareAll (w :: ws) previous = .ok saved) : saved.IsChain Carries := by
  induction ws generalizing w previous saved with
  | nil =>
    obtain ⟨s, rest, rfl, -, hrest⟩ := prepare_all_cons h
    cases hrest
    exact .singleton s
  | cons v ws ih =>
    obtain ⟨s, rest, rfl, -, hrest⟩ := prepare_all_cons h
    have hchain := ih (fun u hu => hnone u (List.mem_cons_of_mem _ hu)) hrest
    obtain ⟨t, later, rfl, ht, -⟩ := prepare_all_cons hrest
    obtain ⟨t', ht', hopening, -⟩ := prepare_ok v (some (previousClosing s.row w.period w.status))
    rw [ht] at ht'
    cases ht'
    refine List.isChain_cons_cons.mpr ⟨?_, hchain⟩
    unfold Carries
    rw [hopening, hnone v (by simp)]
    rfl

/-- A saved return as one period of a head's running balance. -/
def Saved.period (h : Head) (s : Saved) : Period where
  opening := s.row.creditOpening.paise h
  inflow := s.result.itcNet h
  outflow := drawnFrom s.result.used h
  closing := s.row.creditClosing.paise h

/-- Over any chain of returns, what a head opened with and all its net credit is what set-off
consumed and what is left: in the returns, and in the rows they are saved as. -/
theorem credit_conserved (w : Window) (ws : List Window) (previous : Option PreviousClosing) :
    ∃ first rest, prepareAll (w :: ws) previous = .ok (first :: rest) ∧
      rest.length = ws.length ∧
      first.result.opening = (resolveOpening w.windowStart previous w.recorded).balance.paise ∧
      ((first :: rest).IsChain Carries → ∀ h,
        let saved := first :: rest
        let last := saved.getLast (List.cons_ne_nil first rest)
        first.result.opening h + (saved.map (·.result.itcNet h)).sum =
            (saved.map (fun s => drawnFrom s.result.used h)).sum + last.result.closing h ∧
          first.row.creditOpening.paise h + (saved.map (·.result.itcNet h)).sum =
            (saved.map (fun s => drawnFrom s.result.used h)).sum +
              last.row.creditClosing.paise h) := by
  obtain ⟨saved, hok, hlength, hall⟩ := prepare_all_ok (w :: ws) previous
  obtain ⟨first, rest, rfl, hfirst, -⟩ := prepare_all_cons hok
  obtain ⟨first', hfirst', hopening, hopened, -⟩ := prepare_ok w previous
  rw [hfirst] at hfirst'
  cases hfirst'
  refine ⟨first, rest, hok, Nat.succ_injective hlength, hopened.trans (congrArg _ hopening), ?_⟩
  intro hchain h saved last
  have hperiods : (first.period h :: rest.map (Saved.period h)).IsChain Carried := by
    change ((first :: rest).map (Saved.period h)).IsChain Carried
    rw [List.isChain_map]
    exact hchain.imp fun s t hst => congrFun hst h
  have hbalanced : ∀ q ∈ first.period h :: rest.map (Saved.period h), q.Balanced := by
    change ∀ q ∈ (first :: rest).map (Saved.period h), q.Balanced
    intro q hq
    obtain ⟨s, hs, rfl⟩ := List.mem_map.mp hq
    obtain ⟨hso, hsc, hsettled⟩ := hall s hs
    have hcredit := hsettled.credit_eq h
    simp only [Pi.add_apply, Gstr3bResult.pools] at hcredit
    unfold Period.Balanced Saved.period
    dsimp only
    rw [← hso, ← hsc, hcredit, add_comm]
  have hrows : first.row.creditOpening.paise h + (saved.map (·.result.itcNet h)).sum =
      (saved.map (fun s => drawnFrom s.result.used h)).sum + last.row.creditClosing.paise h := by
    have htotal := carried_total hperiods hbalanced
    have hlast : (saved.map (Saved.period h)).getLast (by simp [saved]) = last.period h :=
      List.getLast_map _
    change first.row.creditOpening.paise h + ((saved.map (Saved.period h)).map Period.inflow).sum =
      ((saved.map (Saved.period h)).map Period.outflow).sum +
        ((saved.map (Saved.period h)).getLast _).closing at htotal
    rw [hlast, List.map_map, List.map_map] at htotal
    exact htotal
  refine ⟨?_, hrows⟩
  rw [(hall last (List.getLast_mem _)).2.1, hopened]
  exact hrows

theorem credit_conserved_reversal :
    let april : Gstr3bInputs :=
      { sales := []
        purchases := [{ tax := Tax.of 0 5000 5000 0, isReverseCharge := false }]
        gstr2aRecords := [] }
    let may : Gstr3bInputs :=
      { sales := [⟨.invoice, 20000, Tax.of 0 1800 1800 0, .taxable, false, false, "", .registered⟩]
        purchases := []
        gstr2aRecords := []
        reversals := [⟨Tax.of 0 700 700 0, false⟩] }
    ∃ first second, prepareAll [⟨april, 1, 30, "042026", "submitted", none⟩,
        ⟨may, 31, 61, "052026", "draft", none⟩] none = .ok [first, second] ∧
      first.result.opening .cgst + (first.result.itcNet .cgst + second.result.itcNet .cgst) =
        drawnFrom first.result.used .cgst + drawnFrom second.result.used .cgst +
          second.result.closing .cgst := by
  intro april may
  obtain ⟨first, rest, hok, hlength, -, h⟩ := credit_conserved
    ⟨april, 1, 30, "042026", "submitted", none⟩ [⟨may, 31, 61, "052026", "draft", none⟩] none
  obtain ⟨second, rfl⟩ := List.length_eq_one_iff.mp hlength
  have htotal := (h (unrecorded_carries (by simp) hok) .cgst).1
  refine ⟨first, second, hok, ?_⟩
  simpa using htotal

end Caflow.Gst.CreditChain
