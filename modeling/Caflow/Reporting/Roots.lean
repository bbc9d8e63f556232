import Caflow.Reporting.Projector

set_option linter.all false

namespace Caflow.Reporting
open Accounting (JournalLine totalDebit totalCredit netOn net_on_cons net_on_nil)
open Tally LargestRemainder

/-- Debits less credits. -/
def imbalance (lines : List ProjectedLine) : ℤ :=
  (lines.map fun l => l.debitPaise - l.creditPaise).sum

@[simp] theorem imbalance_nil : imbalance [] = 0 := rfl

@[simp] theorem imbalance_cons (l : ProjectedLine) (ls : List ProjectedLine) :
    imbalance (l :: ls) = l.debitPaise - l.creditPaise + imbalance ls := rfl

@[simp] theorem imbalance_append (ls ls' : List ProjectedLine) :
    imbalance (ls ++ ls') = imbalance ls + imbalance ls' := by
  simp [imbalance]

theorem imbalance_eq (ls : List ProjectedLine) : imbalance ls = totalDebit ls - totalCredit ls := by
  induction ls with
  | nil => rfl
  | cons l ls ih =>
    rw [imbalance_cons, ih]
    simp only [totalDebit, totalCredit, List.map_cons, List.sum_cons]
    ring

theorem balanced_iff (ls : List ProjectedLine) :
    totalDebit ls = totalCredit ls ↔ imbalance ls = 0 := by
  rw [imbalance_eq, sub_eq_zero]

/-- What the lines of one kind leave, the others take. -/
theorem imbalance_filter (p : ProjectedLine → Prop) [DecidablePred p] (ls : List ProjectedLine) :
    imbalance (ls.filter fun l => p l) + imbalance (ls.filter fun l => ¬ p l) = imbalance ls := by
  induction ls with
  | nil => rfl
  | cons l ls ih =>
    rw [imbalance_cons, ← ih]
    by_cases h : p l
    · simp [h]
      ring
    · simp [h]
      ring

@[simp] theorem imbalance_swap (ls : List ProjectedLine) :
    imbalance (ls.map swap) = -imbalance ls := by
  induction ls with
  | nil => rfl
  | cons l ls ih =>
    rw [List.map_cons, imbalance_cons, imbalance_cons, ih, swap]
    ring

@[simp] theorem swap_account (l : ProjectedLine) : (swap l).account = l.account := rfl

@[simp] theorem signed_account (sign : ℤ) (l : ProjectedLine) :
    (signed sign l).account = l.account := by
  unfold signed
  split <;> rfl

@[simp] theorem signed_one : signed 1 = id := by
  funext l
  rw [signed, if_pos (by decide), id]

@[simp] theorem signed_neg_one : signed (-1) = swap := by
  funext l
  rw [signed, if_neg (by decide)]

theorem swap_swap : swap ∘ swap = id := rfl

@[simp] theorem net_on_swap (a : String) (ls : List ProjectedLine) :
    netOn a (ls.map swap) = -netOn a ls := by
  induction ls with
  | nil => rfl
  | cons l ls ih =>
    rw [List.map_cons, net_on_cons, net_on_cons, ih, swap_account]
    split
    · simp only [swap]
      ring
    · ring

namespace LedgerSnapshot

variable {s : LedgerSnapshot}

/-- One posted entry reverses another. -/
def Reverses (s : LedgerSnapshot) (e o : JournalEntry) : Prop :=
  e ∈ s.entries ∧ o ∈ s.entries ∧ given e.reversalOf = some o.id

/-- The entry that a chain of reversals goes back to, and the sign it is projected with. -/
inductive RootOf (s : LedgerSnapshot) : JournalEntry → JournalEntry → ℤ → Prop
  | own : (given e.reversalOf).bind s.entriesById = none → RootOf s e e 1
  | reversal : s.Reverses e o → RootOf s o root sign → RootOf s e root (-sign)

/-- What an entry that goes back to no other is to the projection. -/
inductive Role where
  | receipt (receipt : Receipt)
  | payment (payment : Payment)
  | document
  | direct

def role (s : LedgerSnapshot) (e : JournalEntry) : Role :=
  if (given e.reversalOf).isSome then .direct
  else match s.receiptByJournal e.id with
    | some receipt => .receipt receipt
    | none => match s.paymentByJournal e.id with
      | some payment => .payment payment
      | none =>
        if (s.invoiceByJournal e.id).isSome ∨ (s.billByJournal e.id).isSome ∨
            (s.creditnoteByJournal e.id).isSome ∨ s.isInventoryMovementCompanion e then .document
        else .direct

/-- What the projection of such an entry comes to. -/
def projectRole (s : LedgerSnapshot) (e : JournalEntry) (sign : ℤ) : List ProjectedLine :=
  match s.role e with
  | .receipt receipt => s.projectReceipt receipt e sign
  | .payment payment => s.projectPayment payment e sign
  | .document => []
  | .direct => s.passthrough e sign

theorem project_own (h : given e.reversalOf = none) :
    s.projectOwn e sign = s.projectRole e sign := by
  have hown : ¬ (given e.reversalOf).isSome := by simp [h]
  unfold projectOwn projectRole
  simp only [role, if_neg hown]
  cases s.receiptByJournal e.id with
  | some receipt => rfl
  | none =>
    cases s.paymentByJournal e.id with
    | some payment => rfl
    | none =>
      by_cases hd : (s.invoiceByJournal e.id).isSome ∨ (s.billByJournal e.id).isSome ∨
          (s.creditnoteByJournal e.id).isSome
      · simp only [if_pos hd]
        rw [if_pos (by tauto)]
      · simp only [if_neg hd]
        by_cases hc : s.isInventoryMovementCompanion e
        · rw [if_pos hc, if_pos (by tauto)]
        · rw [if_neg hc, if_neg (by tauto)]

theorem project_first (h : (given e.reversalOf).bind s.entriesById = none) :
    s.projectEntry (frames + 1) e sign = some (s.projectRole e sign) := by
  rw [projectEntry]
  cases hr : given e.reversalOf with
  | none => simp only [project_own hr]
  | some originalId =>
    have hnone : s.entriesById originalId = none := by simpa [hr] using h
    simp only [hnone]
    rw [projectRole, role, if_pos (by simp [hr])]

theorem project_reversal (h : s.Reverses e o) :
    s.projectEntry (frames + 1) e sign = s.projectEntry frames o (-sign) := by
  obtain ⟨-, ho, hr⟩ := h
  rw [projectEntry, hr]
  simp only [s.entries_by_id ho]

/-- Calls that may nest deep enough all return the root's projection. -/
theorem RootOf.projects (h : s.RootOf e root sign) (σ : ℤ) :
    ∃ depth, ∀ frames, depth ≤ frames →
      s.projectEntry frames e σ = some (s.projectRole root (sign * σ)) := by
  induction h generalizing σ with
  | own hown =>
    refine ⟨1, fun frames hframes => ?_⟩
    obtain ⟨frames, rfl⟩ := Nat.exists_eq_add_of_le' hframes
    rw [project_first hown, one_mul]
  | reversal hrev _ ih =>
    obtain ⟨depth, hdepth⟩ := ih (-σ)
    refine ⟨depth + 1, fun frames hframes => ?_⟩
    obtain ⟨frames, rfl⟩ := Nat.exists_eq_add_of_le' (Nat.one_le_of_lt hframes)
    rw [project_reversal hrev, hdepth frames (by omega), mul_neg, neg_mul]

theorem RootOf.answer (h : s.RootOf e root sign) {σ : ℤ}
    (hframes : s.projectEntry frames e σ = some lines) : lines = s.projectRole root (sign * σ) := by
  induction h generalizing σ frames with
  | own hown =>
    cases frames with
    | zero => simp [projectEntry] at hframes
    | succ frames =>
      rw [project_first hown] at hframes
      rw [one_mul, Option.some.inj hframes]
  | reversal hrev _ ih =>
    cases frames with
    | zero => simp [projectEntry] at hframes
    | succ frames =>
      rw [project_reversal hrev] at hframes
      rw [ih hframes, mul_neg, neg_mul]

/-- Going back from reversal to original ends: each original was posted before its reversal. -/
theorem root_exists (he : e ∈ s.entries) : ∃ root sign, s.RootOf e root sign := by
  induction hn : s.postedAs e.id using Nat.strong_induction_on generalizing e with
  | _ n ih =>
    cases hr : (given e.reversalOf).bind s.entriesById with
    | none => exact ⟨e, 1, .own hr⟩
    | some o =>
      obtain ⟨originalId, hgiven, hfound⟩ := Option.bind_eq_some_iff.mp hr
      obtain ⟨ho, rfl⟩ := s.entries_by_id_mem hfound
      obtain ⟨root, sign, hroot⟩ := ih _ (hn ▸ s.reversalLater e he o ho hgiven) ho rfl
      exact ⟨root, -sign, .reversal ⟨he, ho, hgiven⟩ hroot⟩

theorem RootOf.unique (h : s.RootOf e root sign) (h' : s.RootOf e root' sign') :
    root' = root ∧ sign' = sign := by
  induction h generalizing root' sign' with
  | own hown =>
    cases h' with
    | own => exact ⟨rfl, rfl⟩
    | reversal hrev _ =>
      obtain ⟨-, ho, hr⟩ := hrev
      simp [hr, s.entries_by_id ho] at hown
  | reversal hrev _ ih =>
    obtain ⟨-, ho, hr⟩ := hrev
    cases h' with
    | own hown => simp [hr, s.entries_by_id ho] at hown
    | reversal hrev' hroot' =>
      obtain ⟨-, ho', hr'⟩ := hrev'
      have hid := Option.some.inj (hr.symm.trans hr')
      have hsame := (s.entries_by_id ho).symm.trans (hid ▸ s.entries_by_id ho')
      obtain ⟨rfl, rfl⟩ := ih (Option.some.inj hsame ▸ hroot')
      exact ⟨rfl, rfl⟩

theorem RootOf.plus_or_minus (h : s.RootOf e root sign) : sign = 1 ∨ sign = -1 := by
  induction h with
  | own => exact .inl rfl
  | reversal _ _ ih => omega

theorem RootOf.mem (h : s.RootOf e root sign) (he : e ∈ s.entries) : root ∈ s.entries := by
  induction h with
  | own => exact he
  | reversal hrev _ ih => exact ih hrev.2.1

/-- The lines of a reversal are lines of the entry it goes back to, on the side its sign says. -/
theorem RootOf.lines (h : s.RootOf e root sign) :
    e.lines.Sublist (root.lines.map (signed sign)) := by
  induction h with
  | own => simp
  | reversal hrev hroot ih =>
    obtain ⟨he, ho, hr⟩ := hrev
    have hswapped := (s.reversalSwaps _ he _ ho hr).trans (ih.map swap)
    rw [List.map_map] at hswapped
    rcases hroot.plus_or_minus with rfl | rfl
    · simpa using hswapped
    · rw [signed_neg_one, swap_swap] at hswapped
      simpa using hswapped

/-- The sign of a projection is on every line of it. -/
theorem project_role_signed (e : JournalEntry) (sign : ℤ) :
    s.projectRole e sign = (s.projectRole e 1).map (signed sign) := by
  unfold projectRole
  cases s.role e with
  | receipt receipt =>
    simp only [projectReceipt]
    split <;> simp [List.map_map]
  | payment payment =>
    simp only [projectPayment]
    split <;> simp [List.map_map]
  | document => rfl
  | direct => simp [passthrough]

end LedgerSnapshot

end Caflow.Reporting
