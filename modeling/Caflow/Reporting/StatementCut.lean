import Caflow.Reporting.PartyStatement

set_option linter.all false

namespace Caflow.Reporting.PartyStatement
open IsoDate (Date lt_iff_le_day_before)
open RunningBalance (running running_append)
open Tally (tally grouped grouped_perm grouped_keys mem_first_keys first_keys_nodup)
open Text (upper)

section
variable {side : Side} {seed : ℤ} {a b c next : Date} {events : List Event}

theorem sorted_pairwise (events : List Event) :
    (sortEvents events).Pairwise fun e f => e.key ≤ f.key := SortByKey.sorted_pairwise events

theorem sorted_perm (events : List Event) : (sortEvents events).Perm events :=
  List.perm_insertionSort _ events

theorem sorted_filter (p : Event → Bool) (events : List Event) :
    sortEvents (events.filter p) = (sortEvents events).filter p := SortByKey.sorted_filter p events

theorem key_lt {e f : Event} (h : e.date < f.date) : e.key < f.key :=
  Prod.Lex.toLex_lt_toLex.mpr (.inl h)

/-- In order, what is before a window and what is in it make up all until its end. -/
theorem until_split (hab : a ≤ b) (events : List Event) :
    (sortEvents events).filter (·.date ≤ b) =
      (sortEvents events).filter (·.date < a) ++ (sortEvents events).filter (·.within a b) := by
  rw [← SortByKey.filter_or (sorted_pairwise events)]
  · refine List.filter_congr fun e _ => ?_
    rw [Bool.eq_iff_iff]
    simp only [Event.within, Bool.or_eq_true, Bool.and_eq_true, decide_eq_true_eq]
    constructor
    · exact fun hb => (lt_or_ge e.date a).imp_right fun ha => ⟨ha, hb⟩
    · rintro (ha | ⟨-, hb⟩)
      · exact ha.le.trans hab
      · exact hb
  · intro e f he hf
    simp only [Event.within, Bool.and_eq_true, decide_eq_true_eq] at he hf
    exact key_lt (he.trans_le hf.1)

/-- In order, a window is its first part and then the part from the day after. -/
theorem window_split (hab : a ≤ b) (hnext : next.dayBefore? = some b) (hbc : b < c)
    (events : List Event) :
    (sortEvents events).filter (·.within a c) =
      (sortEvents events).filter (·.within a b) ++
        (sortEvents events).filter (·.within next c) := by
  have hafter : ∀ d : Date, next ≤ d ↔ b < d := fun d => by
    rw [← not_lt, lt_iff_le_day_before hnext, not_le]
  rw [← SortByKey.filter_or (sorted_pairwise events)]
  · refine List.filter_congr fun e _ => ?_
    rw [Bool.eq_iff_iff]
    simp only [Event.within, Bool.or_eq_true, Bool.and_eq_true, decide_eq_true_eq, hafter]
    constructor
    · rintro ⟨ha, hc⟩
      exact (le_or_gt e.date b).imp (fun hb => ⟨ha, hb⟩) fun hb => ⟨hb, hc⟩
    · rintro (⟨ha, hb⟩ | ⟨hb, hc⟩)
      · exact ⟨ha, hb.trans hbc.le⟩
      · exact ⟨hab.trans hb.le, hc⟩
  · intro e f he hf
    simp only [Event.within, Bool.and_eq_true, decide_eq_true_eq, hafter] at he hf
    exact key_lt (he.2.trans_lt hf.1)

theorem before_next (hnext : next.dayBefore? = some b) (events : List Event) :
    (sortEvents events).filter (·.date < next) = (sortEvents events).filter (·.date ≤ b) :=
  List.filter_congr fun e _ => by rw [decide_eq_decide, lt_iff_le_day_before hnext]

/-- A replayed statement closes with the seed and all until its end. -/
theorem replayed_closing (side : Side) (seed : ℤ) (hab : a ≤ b) (events : List Event) :
    (statementOf side seed a b events none).closingBalancePaise =
      seed + (((sortEvents events).filter (·.date ≤ b)).map (·.delta side)).sum := by
  rw [until_split hab, List.map_append, List.sum_append, ← add_assoc, statementOf, openingOf]

/-- What a window closes with the day after opens with. -/
theorem closing_is_opening (side : Side) (seed : ℤ) (hab : a ≤ b)
    (hnext : next.dayBefore? = some b) (events : List Event) :
    (statementOf side seed next c events none).openingBalancePaise =
      (statementOf side seed a b events none).closingBalancePaise := by
  rw [replayed_closing side seed hab, ← before_next hnext]
  rfl

/-- The statement of a window has the transactions of its two parts, with the same balances. -/
theorem transactions_split (side : Side) (seed : ℤ) (hab : a ≤ b)
    (hnext : next.dayBefore? = some b) (hbc : b < c) (events : List Event) :
    (statementOf side seed a c events none).transactions =
      (statementOf side seed a b events none).transactions ++
        (statementOf side seed next c events none).transactions := by
  have hopening : openingOf side seed next (sortEvents events) none = _ :=
    closing_is_opening (c := c) side seed hab hnext events
  simp only [statementOf] at hopening ⊢
  rw [window_split hab hnext hbc, running_append, List.map_append, hopening]

theorem or_else_ne {text : Option String} {other : String} (h : other ≠ "") :
    orElse text other ≠ "" := by
  unfold orElse
  split
  · exact h
  · rename_i hgiven
    exact hgiven

theorem upper_ne {s : String} (h : s ≠ "") : upper s ≠ "" := by
  intro hupper
  have hchars := congrArg String.toList hupper
  simp only [upper, String.toList_ofList, String.toList_empty, List.map_eq_nil_iff] at hchars
  exact h (String.toList_eq_nil_iff.mp hchars)

/-- A currency that has been read is read as it is. -/
@[simp] theorem currency_again (raw : Option String) :
    currencyOf (some (currencyOf raw)) = currencyOf raw := by
  have hne : currencyOf raw ≠ "" := upper_ne (or_else_ne (by decide))
  rw [currencyOf, orElse, Option.getD_some, if_neg hne, currencyOf, Text.upper_upper]

@[simp] theorem currency_rupee : currencyOf (some "INR") = "INR" := by decide

theorem sorted_slots_perm (slots : List (String × ℤ × ℤ)) : (sortedSlots slots).Perm slots :=
  List.perm_insertionSort _ slots

/-- Groups that are the same in some order come out in one order. -/
theorem sorted_slots_eq {ps qs : List (String × ℤ × ℤ)} (h : (grouped ps).Perm (grouped qs)) :
    sortedSlots (grouped ps) = sortedSlots (grouped qs) := by
  refine SortByKey.sorted_eq h ?_
  rw [grouped_keys]
  exact first_keys_nodup ps

/-- The rows of a position are read as its slots. -/
theorem position_entries (side : Side) (seed : ℤ) (a : Date) (events : List Event) :
    (positionOf side seed a events).byCurrency.map CurrencyPosition.entry =
      sortedSlots (grouped (("INR", seed, seed) ::
        (events.filter (·.date < a)).map (·.movement side))) := by
  rw [positionOf, List.map_map]
  refine (List.map_congr_left fun slot hslot => ?_).trans (List.map_id _)
  have hkey : slot.1 ∈ Tally.firstKeys (("INR", seed, seed) ::
      (events.filter (·.date < a)).map (·.movement side)) := by
    rw [← grouped_keys]
    exact List.mem_map_of_mem ((sorted_slots_perm _).mem_iff.mp hslot)
  obtain ⟨p, hp, hfst⟩ := mem_first_keys.mp hkey
  have hread : currencyOf (some slot.1) = slot.1 := by
    rw [← hfst]
    rcases List.mem_cons.mp hp with rfl | hp
    · exact currency_rupee
    · obtain ⟨e, -, rfl⟩ := List.mem_map.mp hp
      exact currency_again _
  simp only [Function.comp_apply, CurrencyPosition.entry, hread, Option.getD_some, id_eq]

/-- The window's own events, in order, are those of the history in it. -/
theorem windowed_sorted (a b : Date) (events : List Event) :
    (sortEvents (events.filter (·.within a b))).filter (·.within a b) =
      (sortEvents events).filter (·.within a b) := by
  rw [sorted_filter, List.filter_filter]
  simp only [Bool.and_self]

theorem windowed_until (a b : Date) (events : List Event) :
    (sortEvents (events.filter (·.within a b))).filter (·.date ≤ b) =
      (sortEvents events).filter (·.within a b) := by
  rw [sorted_filter, List.filter_filter]
  refine List.filter_congr fun e _ => ?_
  rw [Bool.eq_iff_iff]
  simp only [Event.within, Bool.and_eq_true, decide_eq_true_eq]
  exact ⟨And.right, fun h => ⟨h.2, h⟩⟩

/-- The slots of a window on its position are those of the full history. -/
theorem slots_eq (side : Side) (seed : ℤ) (hab : a ≤ b) (events : List Event) :
    sortedSlots (grouped (openingEntries seed (some (positionOf side seed a events)) ++
        ((sortEvents (events.filter (·.within a b))).filter (·.date ≤ b)).map
          (·.movement side))) =
      sortedSlots (grouped (openingEntries seed none ++
        ((sortEvents events).filter (·.date ≤ b)).map (·.movement side))) := by
  refine sorted_slots_eq ?_
  rw [windowed_until, until_split hab, openingEntries, openingEntries, position_entries,
    List.map_append, ← List.append_assoc]
  set window := ((sortEvents events).filter (·.within a b)).map (·.movement side)
  set earlier := ("INR", seed, seed) :: (events.filter (·.date < a)).map (·.movement side)
    with hearlier
  have hrupee : ∃ p ∈ sortedSlots (grouped earlier), p.1 = "INR" := by
    have hkey : "INR" ∈ (grouped earlier).map Prod.fst := by
      rw [grouped_keys, mem_first_keys]
      exact ⟨_, List.mem_cons_self, rfl⟩
    obtain ⟨p, hp, hfst⟩ := List.mem_map.mp hkey
    exact ⟨p, (sorted_slots_perm _).mem_iff.mpr hp, hfst⟩
  have hbefore : earlier.Perm ([("INR", seed, seed)] ++
      ((sortEvents events).filter (·.date < a)).map (·.movement side)) :=
    ((((sorted_perm events).symm.filter _).map _).cons _)
  exact (Tally.grouped_zero hrupee window).trans
    ((Tally.grouped_again (sorted_slots_perm _) window).trans
      (Tally.grouped_of_perm (hbefore.append_right window)))

/-- Somewhere until a day a currency other than the rupee comes up. -/
def ForeignUntil (b : Date) (events : List Event) : Prop :=
  ∃ e ∈ events, e.isForeign ∧ e.date ≤ b

theorem foreign_position :
    ((positionOf side seed a events).byCurrency.any (currencyOf ·.currency ≠ "INR")) ↔
      ∃ e ∈ events, e.isForeign ∧ e.date < a := by
  have hentries : (positionOf side seed a events).byCurrency.any
      (currencyOf ·.currency ≠ "INR") =
      (((positionOf side seed a events).byCurrency.map CurrencyPosition.entry).any
        (·.1 ≠ "INR")) := by
    rw [List.any_map]
    rfl
  rw [hentries, position_entries, (sorted_slots_perm _).any_eq, List.any_eq_true]
  constructor
  · rintro ⟨slot, hslot, hne⟩
    have hkey := List.mem_map_of_mem (f := Prod.fst) hslot
    rw [grouped_keys, mem_first_keys] at hkey
    obtain ⟨p, hp, hfst⟩ := hkey
    rcases List.mem_cons.mp hp with rfl | hp
    · simp [← hfst] at hne
    · obtain ⟨e, he, rfl⟩ := List.mem_map.mp hp
      obtain ⟨hmem, hdate⟩ := List.mem_filter.mp he
      rw [← hfst] at hne
      exact ⟨e, hmem, hne, of_decide_eq_true hdate⟩
  · rintro ⟨e, he, hforeign, hdate⟩
    have hkey : (e.movement side).1 ∈ (grouped (("INR", seed, seed) ::
        (events.filter (·.date < a)).map (·.movement side))).map Prod.fst := by
      rw [grouped_keys, mem_first_keys]
      refine ⟨_, List.mem_cons_of_mem _ (List.mem_map_of_mem ?_), rfl⟩
      exact List.mem_filter.mpr ⟨he, decide_eq_true hdate⟩
    obtain ⟨slot, hslot, hfst⟩ := List.mem_map.mp hkey
    exact ⟨slot, hslot, by rw [hfst]; exact hforeign⟩

/-- What is outstanding over all currencies is all that was entered, in rupees. -/
theorem lines_sum (pairs : List (String × ℤ × ℤ)) :
    (((sortedSlots (grouped pairs)).map currencyLine).map (·.outstandingBasePaise)).sum =
      (pairs.map (·.2.1)).sum := by
  have hall : ((grouped pairs).map Prod.snd).sum = (pairs.map Prod.snd).sum := by
    simpa using Tally.sum_grouped_filter (p := fun _ => true) pairs
  have hrupees := congrArg (AddMonoidHom.fst ℤ ℤ) hall
  rw [map_list_sum, map_list_sum, List.map_map, List.map_map] at hrupees
  rw [List.map_map, ((sorted_slots_perm _).map _).sum_eq]
  exact hrupees

/-- The closing outstanding of a full history, where it is given, sums to its closing balance. -/
theorem replayed_sum (hab : a ≤ b)
    (h : (statementOf side seed a b events none).outstandingByCurrency = some lines) :
    (lines.map (·.outstandingBasePaise)).sum =
      (statementOf side seed a b events none).closingBalancePaise := by
  simp only [statementOf, attachCurrencyOutstanding] at h
  split at h
  · obtain rfl := Option.some.inj h
    rw [lines_sum, replayed_closing side seed hab, List.map_append, List.sum_append, List.map_map]
    simp [openingEntries, Event.movement, Function.comp_def]
  · cases h

/-- Events of a window, on the position before it, open with what the full history opens with. -/
theorem windowed_opening (side : Side) (seed : ℤ) (a b : Date) (events : List Event) :
    (statementOf side seed a b (events.filter (·.within a b))
        (some (positionOf side seed a events))).openingBalancePaise =
      (statementOf side seed a b events none).openingBalancePaise := by
  have hperm := ((sorted_perm events).filter (·.date < a)).map (·.delta side)
  simp only [statementOf, openingOf, positionOf, Option.getD_some, hperm.sum_eq]

theorem windowed_transactions (side : Side) (seed : ℤ) (a b : Date) (events : List Event) :
    (statementOf side seed a b (events.filter (·.within a b))
        (some (positionOf side seed a events))).transactions =
      (statementOf side seed a b events none).transactions := by
  have hopening := windowed_opening side seed a b events
  simp only [statementOf] at hopening ⊢
  rw [windowed_sorted, hopening]

theorem windowed_closing (side : Side) (seed : ℤ) (a b : Date) (events : List Event) :
    (statementOf side seed a b (events.filter (·.within a b))
        (some (positionOf side seed a events))).closingBalancePaise =
      (statementOf side seed a b events none).closingBalancePaise := by
  have hopening := windowed_opening side seed a b events
  simp only [statementOf] at hopening ⊢
  rw [windowed_sorted, hopening]

/-- On its position, a window splits its closing outstanding where a currency came up until then. -/
theorem windowed_outstanding (side : Side) (seed : ℤ) (hab : a ≤ b) (events : List Event)
    [Decidable (ForeignUntil b events)] :
    (statementOf side seed a b (events.filter (·.within a b))
        (some (positionOf side seed a events))).outstandingByCurrency =
      if ForeignUntil b events then
        some ((sortedSlots (grouped (openingEntries seed none ++
          ((sortEvents events).filter (·.date ≤ b)).map (·.movement side)))).map currencyLine)
      else none := by
  have hforeign : ((sortEvents (events.filter (·.within a b))).any (·.isForeign) ||
      (positionOf side seed a events).byCurrency.any (currencyOf ·.currency ≠ "INR")) ↔
      ForeignUntil b events := by
    rw [Bool.or_eq_true, foreign_position, (sorted_perm _).any_eq, List.any_eq_true]
    constructor
    · rintro (⟨e, he, hf⟩ | ⟨e, he, hf, hdate⟩)
      · obtain ⟨hmem, hwithin⟩ := List.mem_filter.mp he
        simp only [Event.within, Bool.and_eq_true, decide_eq_true_eq] at hwithin
        exact ⟨e, hmem, hf, hwithin.2⟩
      · exact ⟨e, he, hf, hdate.le.trans hab⟩
    · rintro ⟨e, he, hf, hdate⟩
      rcases lt_or_ge e.date a with ha | ha
      · exact .inr ⟨e, he, hf, ha⟩
      · exact .inl ⟨e, List.mem_filter.mpr ⟨he, by simp [Event.within, ha, hdate]⟩, hf⟩
  simp only [statementOf, attachCurrencyOutstanding, Option.map_some, Option.getD_some, hforeign,
    slots_eq side seed hab]

/-- A full history splits its closing outstanding where a currency comes up at any time. -/
theorem replayed_outstanding (side : Side) (seed : ℤ) (a b : Date) (events : List Event)
    [Decidable (∃ e ∈ events, e.isForeign)] :
    (statementOf side seed a b events none).outstandingByCurrency =
      if ∃ e ∈ events, e.isForeign then
        some ((sortedSlots (grouped (openingEntries seed none ++
          ((sortEvents events).filter (·.date ≤ b)).map (·.movement side)))).map currencyLine)
      else none := by
  have hforeign : ((sortEvents events).any (·.isForeign)) ↔ ∃ e ∈ events, e.isForeign := by
    rw [(sorted_perm _).any_eq, List.any_eq_true]
  simp [statementOf, attachCurrencyOutstanding, hforeign]

namespace Documents

theorem statement_eq (seed : ℤ) (a b : Date) (position : Option OpeningPosition)
    (docs : Documents) :
    docs.statement seed a b position = statementOf docs.side seed a b docs.events position := by
  cases docs <;> rfl

@[simp] theorem within_side (a b : Date) (docs : Documents) :
    (docs.within a b).side = docs.side := by
  cases docs <;> rfl

theorem filter_events (f : α → Event) (date : α → Date) (hdate : ∀ d, (f d).date = date d)
    (a b : Date) (rows : List α) :
    (rows.filter fun d => a ≤ date d && date d ≤ b).map f =
      (rows.map f).filter (·.within a b) := by
  rw [List.filter_map]
  refine congrArg (List.map f) (List.filter_congr fun d _ => ?_)
  rw [← hdate]
  rfl

/-- The documents of a window make the events of the window. -/
@[simp] theorem within_events (a b : Date) (docs : Documents) :
    (docs.within a b).events = docs.events.filter (·.within a b) := by
  cases docs with
  | customer invoices receipts creditNotes debitNotes =>
    simp only [within, events, List.filter_append]
    rw [filter_events invoiceEvent Invoice.invoiceDate fun _ => rfl,
      filter_events (debitNoteEvent 1) Note.noteDate fun _ => rfl,
      filter_events (creditNoteEvent 2) Note.noteDate fun _ => rfl,
      filter_events receiptEvent Receipt.receiptDate fun _ => rfl]
  | vendor bills payments debitNotes creditNotes =>
    simp only [within, events, List.filter_append]
    rw [filter_events billEvent Bill.billDate fun _ => rfl,
      filter_events (creditNoteEvent 1) Note.noteDate fun _ => rfl,
      filter_events (debitNoteEvent 2) Note.noteDate fun _ => rfl,
      filter_events paymentEvent Payment.paymentDate fun _ => rfl]

/-- A statement of a window from its own documents and the position before it. -/
def windowed (seed : ℤ) (a b : Date) (docs : Documents) : Statement :=
  (docs.within a b).statement seed a b (some (docs.position seed a))

theorem windowed_eq (seed : ℤ) (a b : Date) (docs : Documents) :
    docs.windowed seed a b = statementOf docs.side seed a b (docs.events.filter (·.within a b))
      (some (positionOf docs.side seed a docs.events)) := by
  rw [windowed, statement_eq, within_side, within_events, position]

end Documents

/-- A statement's currencies, where it has them, sum in rupees to its closing balance. -/
def Statement.Reconciled (s : Statement) : Prop :=
  ∀ lines, s.outstandingByCurrency = some lines →
    (lines.map (·.outstandingBasePaise)).sum = s.closingBalancePaise

/-- One statement reads like another. -/
def Statement.Agrees (s t : Statement) : Prop :=
  s.openingBalancePaise = t.openingBalancePaise ∧ s.transactions = t.transactions ∧
    s.closingBalancePaise = t.closingBalancePaise ∧
    s.outstandingByCurrency = t.outstandingByCurrency

/-- The history of a party can be cut at both ends of a window. -/
structure Seamless (docs : Documents) (seed : ℤ) (a b : Date) : Prop where
  opening : ∀ next c : Date, next.dayBefore? = some b → b < c →
    (docs.statement seed next c none).openingBalancePaise =
      (docs.statement seed a b none).closingBalancePaise
  transactions : ∀ next c : Date, next.dayBefore? = some b → b < c →
    (docs.statement seed a c none).transactions =
      (docs.statement seed a b none).transactions ++
        (docs.statement seed next c none).transactions
  replayed : (docs.statement seed a b none).Reconciled
  reconciled : (docs.windowed seed a b).Reconciled
  agrees : (docs.windowed seed a b).Agrees (docs.statement seed a b none)

/-- Both ways split what is outstanding unless a currency comes up after the window only. -/
theorem outstanding_iff (side : Side) (seed : ℤ) (hab : a ≤ b) (events : List Event) :
    (statementOf side seed a b (events.filter (·.within a b))
        (some (positionOf side seed a events))).outstandingByCurrency =
      (statementOf side seed a b events none).outstandingByCurrency ↔
    ((∃ e ∈ events, e.isForeign) → ForeignUntil b events) := by
  classical
  rw [windowed_outstanding side seed hab, replayed_outstanding]
  by_cases huntil : ForeignUntil b events
  · have hany : ∃ e ∈ events, e.isForeign := huntil.imp fun e he => ⟨he.1, he.2.1⟩
    simp [huntil, hany]
  · by_cases hany : ∃ e ∈ events, e.isForeign
    · simp [huntil, hany]
    · simp [huntil, hany]

theorem windowed_sum (hab : a ≤ b)
    (h : (statementOf side seed a b (events.filter (·.within a b))
      (some (positionOf side seed a events))).outstandingByCurrency = some lines) :
    (lines.map (·.outstandingBasePaise)).sum =
      (statementOf side seed a b (events.filter (·.within a b))
        (some (positionOf side seed a events))).closingBalancePaise := by
  classical
  have huntil : ForeignUntil b events := by
    by_contra hnone
    rw [windowed_outstanding side seed hab, if_neg hnone] at h
    cases h
  rw [windowed_closing, ← replayed_sum hab]
  rw [← h]
  exact ((outstanding_iff side seed hab events).mpr fun _ => huntil).symm

/-- A party's history can be cut around a window unless a foreign currency first comes up after
it: the full history then splits what is outstanding at its end and the window does not. -/
theorem seamless_iff (docs : Documents) (seed : ℤ) (a b : Date) (hab : a ≤ b) :
    Seamless docs seed a b ↔
      ((∃ e ∈ docs.events, e.isForeign) → ∃ e ∈ docs.events, e.isForeign ∧ e.date ≤ b) := by
  constructor
  · intro h
    have hsame := h.agrees.2.2.2
    rw [Documents.windowed_eq, Documents.statement_eq] at hsame
    exact (outstanding_iff docs.side seed hab docs.events).mp hsame
  · intro hforeign
    constructor
    · intro next c hnext _
      rw [Documents.statement_eq, Documents.statement_eq]
      exact closing_is_opening docs.side seed hab hnext docs.events
    · intro next c hnext hbc
      rw [Documents.statement_eq, Documents.statement_eq, Documents.statement_eq]
      exact transactions_split docs.side seed hab hnext hbc docs.events
    · intro lines h
      rw [Documents.statement_eq] at h ⊢
      exact replayed_sum hab h
    · intro lines h
      rw [Documents.windowed_eq] at h ⊢
      exact windowed_sum hab h
    · rw [Documents.windowed_eq, Documents.statement_eq]
      exact ⟨windowed_opening docs.side seed a b docs.events,
        windowed_transactions docs.side seed a b docs.events,
        windowed_closing docs.side seed a b docs.events,
        (outstanding_iff docs.side seed hab docs.events).mpr hforeign⟩

/-- A dollar invoice before the window leaves the window's statement as the full one. -/
theorem dollar_before_seamless :
    Seamless (.customer
        [⟨Date.of 2025 3 10, some "INV-1", some 830000, some "USD", some "83", some 10000⟩,
          ⟨Date.of 2025 4 10, some "INV-2", some 50000, none, none, none⟩] [] [] [])
      1000 (Date.of 2025 4 1) (Date.of 2025 4 30) :=
  (seamless_iff _ 1000 (Date.of 2025 4 1) (Date.of 2025 4 30) (by decide)).mpr fun _ =>
    ⟨_, List.mem_cons_self, by decide, by decide⟩

/-- A dollar invoice after the window: the full history shows currencies and the window none. -/
theorem dollar_after_not_seamless :
    Date.of 2025 4 1 ≤ Date.of 2025 4 30 ∧ ¬ Seamless (.customer
        [⟨Date.of 2025 4 10, some "INV-1", some 50000, none, none, none⟩,
          ⟨Date.of 2025 6 10, some "INV-2", some 830000, some "USD", some "83", some 10000⟩] [] [] [])
      0 (Date.of 2025 4 1) (Date.of 2025 4 30) := by
  refine ⟨by decide, fun h => ?_⟩
  have hsame := h.agrees.2.2.2
  revert hsame
  decide

end

end Caflow.Reporting.PartyStatement
