import Caflow.Numbering.Series

set_option linter.all false

namespace Caflow.Numbering
open Text TopWindow

/-- What a series' numbers begin with: nothing that stripping would take away. -/
structure SeriesPrefix where
  text : String
  solid : text.toList.head?.any isSpace = false

/-- The rows of a table under its unique key. -/
structure Register (table : Table) where
  rows : List Row
  unique : (rows.map fun row => (table.scope.map row.value, row.number)).Nodup

/-- The unique key of a row. -/
def Table.key (table : Table) (row : Row) : List String × String :=
  (table.scope.map row.value, row.number)

/-- A row goes in unless one with its key is there. -/
def Register.insert (register : Register table) (row : Row) : Option (Register table) :=
  if h : ∃ other ∈ register.rows, table.key other = table.key row then none
  else some ⟨register.rows ++ [row], by
    rw [List.map_append, List.nodup_append]
    refine ⟨register.unique, by simp, ?_⟩
    intro a ha b hb hab
    obtain ⟨other, hother, rfl⟩ := List.mem_map.mp ha
    exact h ⟨other, hother, hab.trans (List.mem_singleton.mp hb)⟩⟩

/-- The scope a caller passes for a row of its own. -/
def Table.scopeOf (table : Table) (firmId clientId : String) : Scope where
  firmId := some firmId
  clientId := if Column.clientId ∈ table.scope then some clientId else none

def uniqueViolation : Failure :=
  .valueError "duplicate key value violates unique constraint (23505)"

/-- An insert with a number of its own, tried again while the number is taken. -/
def insertWithNumber (register : Register table) (row : String → Row) (format : ℕ → String)
    (nextSeq : List Row → Except Failure ℕ) : ℕ → Except Failure (Register table × Row)
  | 0 => .error uniqueViolation
  | attempts + 1 =>
    match nextSeq register.rows with
    | .error raised => .error raised
    | .ok seq =>
      match register.insert (row (format seq)) with
      | some inserted => .ok (inserted, row (format seq))
      | none => insertWithNumber register row format nextSeq attempts

theorem read_digits (digits : List Char) (h : ∀ c ∈ digits, c.isDigit = true) (init : ℕ) :
    digits.foldlM (fun n c => if c.isDigit then some (10 * n + (c.toNat - 48)) else none) init =
      some (Nat.ofDigitChars 10 digits init) := by
  induction digits generalizing init with
  | nil => simp
  | cons c cs ih =>
    have hc : c.isDigit = true := h c (by simp)
    have hrest := ih (fun d hd => h d (List.mem_cons_of_mem c hd)) (10 * init + (c.toNat - 48))
    rw [List.foldlM_cons, if_pos hc, Nat.ofDigitChars_cons]
    exact hrest

theorem padded_digits (n : ℕ) : ∀ c ∈ padded n, c.isDigit = true := by
  intro c hc
  rcases List.mem_append.mp hc with hzero | hdigit
  · rw [List.eq_of_mem_replicate hzero]
    rfl
  · exact Nat.isDigit_of_mem_toDigits (by decide) (by decide) hdigit

theorem padded_ne_nil (n : ℕ) : padded n ≠ [] := by
  unfold padded
  intro h
  exact Nat.toDigits_ne_nil (List.append_eq_nil_iff.mp h).2

theorem read_padded (n : ℕ) : readNat (padded n) = some n := by
  unfold readNat
  rw [if_neg (padded_ne_nil n), read_digits _ (padded_digits n)]
  unfold padded
  rw [Nat.ofDigitChars_append, Nat.ofDigitChars_replicate_zero, Nat.mul_zero,
    Nat.ofDigitChars_ten_toDigits]

theorem digit_not_space (h : Char.isDigit c = true) : isSpace c = false := by
  have hrange : 48 ≤ c.toNat ∧ c.toNat ≤ 57 := by
    simp only [Char.isDigit, Bool.and_eq_true, decide_eq_true_eq, ge_iff_le,
      UInt32.le_iff_toNat_le] at h
    exact h
  have hne : ∀ m, m < 48 ∨ 57 < m → (c.toNat == m) = false := by
    intro m hm
    rw [beq_eq_false_iff_ne]
    omega
  have hout : ∀ a b, b < 48 ∨ 57 < a → (decide (a ≤ c.toNat) && decide (c.toNat ≤ b)) = false := by
    intro a b hab
    rw [Bool.and_eq_false_iff, decide_eq_false_iff_not, decide_eq_false_iff_not]
    omega
  unfold isSpace
  simp (disch := decide) only [hne, hout, Bool.or_self]

/-- Nothing is stripped off a text with no space at its ends. -/
theorem strip_of_ends {s : String} (hne : s.toList ≠ [])
    (hhead : ∀ c, s.toList.head? = some c → isSpace c = false)
    (hlast : isSpace (s.toList.getLast hne) = false) : strip s = s := by
  have hfront : s.toList.dropWhile isSpace = s.toList := by
    rw [List.dropWhile_eq_self_iff]
    intro hpos
    have h0 := hhead s.toList[0] (by rw [List.head?_eq_getElem?, List.getElem?_eq_getElem hpos])
    simp [h0]
  have hback : s.toList.rdropWhile isSpace = s.toList := by
    rw [List.rdropWhile_eq_self_iff]
    intro _
    simp [hlast]
  rw [strip_eq, hfront, hback, String.ofList_toList]

/-- A number reads back as the counter it was made from. -/
theorem counter_of_format (lead : SeriesPrefix) (n : ℕ) :
    counterOf lead.text (formatNumber lead.text n) = some n := by
  have htext : (formatNumber lead.text n).toList = lead.text.toList ++ padded n := by
    unfold formatNumber
    rw [String.toList_append, String.toList_ofList]
  have hne : (formatNumber lead.text n).toList ≠ [] := by
    rw [htext]
    simp [padded_ne_nil]
  have hstrip : strip (formatNumber lead.text n) = formatNumber lead.text n := by
    apply strip_of_ends hne
    · intro c hc
      rw [htext, List.head?_append] at hc
      cases hlead : lead.text.toList.head? with
      | some d =>
        rw [hlead] at hc
        cases hc
        simpa [hlead] using lead.solid
      | none =>
        rw [hlead] at hc
        exact digit_not_space (padded_digits n c (List.mem_of_mem_head? hc))
    · have hlast : (formatNumber lead.text n).toList.getLast hne =
          (padded n).getLast (padded_ne_nil n) := by
        simp only [htext]
        exact List.getLast_append_of_ne_nil _ (padded_ne_nil n)
      rw [hlast]
      exact digit_not_space (padded_digits n _ (List.getLast_mem _))
  unfold counterOf
  rw [hstrip]
  dsimp only
  rw [htext, if_pos (List.prefix_append _ _), List.drop_left, read_padded]

theorem format_injective (lead : SeriesPrefix) : Function.Injective (formatNumber lead.text) := by
  intro n m h
  have hn := counter_of_format lead n
  rw [h, counter_of_format lead m] at hn
  exact (Option.some.inj hn).symm

/-- The highest counter of some numbers. -/
def highestCounter (numbers : List String) (lead : String) : ℕ :=
  numbers.foldl (fun highest value => max highest ((counterOf lead value).getD 0)) 0

theorem sequence_after_eq (numbers : List String) (lead : String) :
    sequenceAfter numbers lead = highestCounter numbers lead + 1 := rfl

theorem foldl_max_le_iff (f : α → ℕ) (l : List α) (init m : ℕ) :
    l.foldl (fun highest x => max highest (f x)) init ≤ m ↔ init ≤ m ∧ ∀ x ∈ l, f x ≤ m := by
  induction l generalizing init with
  | nil => simp
  | cons a l ih =>
    rw [List.foldl_cons, ih, max_le_iff, List.forall_mem_cons, and_assoc]

theorem counter_le_highest (hx : x ∈ numbers) :
    (counterOf lead x).getD 0 ≤ highestCounter numbers lead :=
  ((foldl_max_le_iff (fun value => (counterOf lead value).getD 0) numbers 0 _).mp le_rfl).2 x hx

theorem highest_attained (hne : numbers ≠ []) :
    ∃ x ∈ numbers, (counterOf lead x).getD 0 = highestCounter numbers lead := by
  by_contra hnone
  have hlt : ∀ x ∈ numbers, (counterOf lead x).getD 0 < highestCounter numbers lead := by
    intro x hx
    exact lt_of_le_of_ne (counter_le_highest hx) fun heq => hnone ⟨x, hx, heq⟩
  obtain ⟨x, hx⟩ := List.exists_mem_of_ne_nil numbers hne
  have hpos : 0 < highestCounter numbers lead := Nat.zero_lt_of_lt (hlt x hx)
  have hle : highestCounter numbers lead ≤ highestCounter numbers lead - 1 :=
    (foldl_max_le_iff _ numbers 0 _).mpr
      ⟨Nat.zero_le _, fun y hy => Nat.le_sub_one_of_lt (hlt y hy)⟩
  omega

/-- Every counter in use is matched by a number that the window still holds. -/
def HighestSeen (numbers : List String) (lead : String) : Prop :=
  ∀ x ∈ numbers, ∀ n, counterOf lead x = some n → ∃ y ∈ numbers,
    n ≤ (counterOf lead y).getD 0 ∧ numbers.countP (fun z => y < z) < sequenceWindow

/-- The next counter is past every counter in use exactly when the window holds the highest. -/
theorem next_past_iff (hnodup : numbers.Nodup) :
    (∀ x ∈ numbers, ∀ n, counterOf lead x = some n →
      n < sequenceAfter (topWindow sequenceWindow numbers) lead) ↔ HighestSeen numbers lead := by
  rw [sequence_after_eq]
  constructor
  · intro h x hx n hn
    have hlength : (topWindow sequenceWindow numbers).length =
        min sequenceWindow numbers.length := by
      unfold topWindow
      rw [List.length_take, List.length_insertionSort]
    have hpos : 0 < numbers.length := List.length_pos_of_mem hx
    have hne : topWindow sequenceWindow numbers ≠ [] := by
      apply List.ne_nil_of_length_pos
      rw [hlength]
      exact lt_min (by decide) hpos
    have hattained : ∃ y ∈ topWindow sequenceWindow numbers, (counterOf lead y).getD 0 =
        highestCounter (topWindow sequenceWindow numbers) lead := highest_attained hne
    obtain ⟨y, hy, hhighest⟩ := hattained
    obtain ⟨hmem, hcount⟩ := (mem_top_window hnodup).mp hy
    have hlt := h x hx n hn
    exact ⟨y, hmem, by omega, hcount⟩
  · intro h x hx n hn
    obtain ⟨y, hy, hle, hcount⟩ := h x hx n hn
    have hseen : y ∈ topWindow sequenceWindow numbers := (mem_top_window hnodup).mpr ⟨hy, hcount⟩
    have hhighest : (counterOf lead y).getD 0 ≤
        highestCounter (topWindow sequenceWindow numbers) lead := counter_le_highest hseen
    omega

theorem scope_of_columns (table : Table) (firmId clientId : String) :
    (table.scopeOf firmId clientId).columns.toFinset = table.scope.toFinset := by
  have hcolumns : (table.scopeOf firmId clientId).columns =
      [Column.clientId, .firmId].filter (fun column => column ∈ table.scope) := by
    cases table <;> rfl
  rw [hcolumns]
  cases table <;> decide

/-- A scope covers the rows whose key agrees with the caller's own. -/
theorem scope_of_covers_iff (table : Table) (row other : Row) :
    (table.scopeOf row.firmId row.clientId).covers other = true ↔
      table.scope.map other.value = table.scope.map row.value := by
  by_cases hwide : table = .purchasePayments
  · subst hwide
    change (decide (other.firmId = row.firmId) && (true && true)) = true ↔
      [other.firmId] = [row.firmId]
    simp
  · have hcovers : (table.scopeOf row.firmId row.clientId).covers other =
        (decide (other.firmId = row.firmId) &&
          (decide (other.clientId = row.clientId) && true)) := by
      cases table <;> first | rfl | exact absurd rfl hwide
    have hkey : ∀ r : Row, table.scope.map r.value = [r.firmId, r.clientId] := by
      intro r
      cases table <;> first | rfl | exact absurd rfl hwide
    rw [hcovers, hkey, hkey]
    simp

theorem next_sequence_ok (rows : List Row) (table : Table) (lead firmId clientId : String) :
    nextSequence rows table lead (table.scopeOf firmId clientId) =
      .ok (sequenceAfter (topWindow sequenceWindow
        (numbersIn rows (table.scopeOf firmId clientId) lead)) lead) := by
  unfold nextSequence
  rw [if_neg (not_not.mpr (scope_of_columns table firmId clientId))]

/-- The numbers of one scope differ, as the unique key has it. -/
theorem numbers_in_nodup (register : Register table) (row : Row) (lead : String) :
    (numbersIn register.rows (table.scopeOf row.firmId row.clientId) lead).Nodup := by
  unfold numbersIn
  apply List.Nodup.filter
  have hunique := register.unique
  rw [List.Nodup, List.pairwise_map] at hunique ⊢
  rw [List.pairwise_filter]
  refine hunique.imp ?_
  intro a b hne ha hb hnumber
  rw [scope_of_covers_iff] at ha hb
  exact hne (Prod.ext (ha.trans hb.symm) hnumber)

/-- A row of a client, before it has its number. -/
def rowOf (firmId clientId number : String) : Row := ⟨firmId, clientId, number⟩

/-- An insert into a series with nobody else writing. -/
def insertAlone (register : Register table) (lead : SeriesPrefix) (firmId clientId : String) :
    Except Failure (Register table × Row) :=
  insertWithNumber register (rowOf firmId clientId) (formatNumber lead.text)
    (fun rows => nextSequence rows table lead.text (table.scopeOf firmId clientId)) 6

theorem insert_fresh {register : Register table}
    (h : ∀ other ∈ register.rows, table.key other ≠ table.key row) :
    ∃ inserted, register.insert row = some inserted ∧ inserted.rows = register.rows ++ [row] := by
  unfold Register.insert
  rw [dif_neg (by push Not; exact h)]
  exact ⟨_, rfl, rfl⟩

theorem insert_alone_ok (register : Register table) (lead : SeriesPrefix)
    (firmId clientId : String)
    (hpast : ∀ x ∈ numbersIn register.rows (table.scopeOf firmId clientId) lead.text, ∀ n,
      counterOf lead.text x = some n →
      n < sequenceAfter (topWindow sequenceWindow
        (numbersIn register.rows (table.scopeOf firmId clientId) lead.text)) lead.text) :
    ∃ done, insertAlone register lead firmId clientId = .ok done := by
  set next := sequenceAfter (topWindow sequenceWindow
    (numbersIn register.rows (table.scopeOf firmId clientId) lead.text)) lead.text with hnext
  have hfresh : ∀ other ∈ register.rows,
      table.key other ≠ table.key (rowOf firmId clientId (formatNumber lead.text next)) := by
    intro other hother hkey
    obtain ⟨hscope, hnumber⟩ := Prod.ext_iff.mp hkey
    have hcovered : (table.scopeOf firmId clientId).covers other = true :=
      (scope_of_covers_iff table (rowOf firmId clientId (formatNumber lead.text next)) other).mpr
        hscope
    have hin : formatNumber lead.text next ∈
        numbersIn register.rows (table.scopeOf firmId clientId) lead.text := by
      unfold numbersIn
      rw [List.mem_filter, List.mem_map]
      refine ⟨⟨other, List.mem_filter.mpr ⟨hother, hcovered⟩, hnumber⟩, ?_⟩
      unfold formatNumber
      rw [String.toList_append]
      exact decide_eq_true (List.prefix_append _ _)
    exact absurd (hpast _ hin next (counter_of_format lead next)) (lt_irrefl next)
  obtain ⟨inserted, hinsert, -⟩ := insert_fresh hfresh
  unfold insertAlone insertWithNumber
  dsimp only
  rw [next_sequence_ok, ← hnext]
  dsimp only
  rw [hinsert]
  exact ⟨_, rfl⟩

section
variable {ι : Type} [DecidableEq ι] {table : Table}

/-- A call of `insert_with_number`: the row it would insert, and how it comes to its number. -/
structure Caller where
  row : String → Row
  format : ℕ → String
  nextSeq : List Row → Except Failure ℕ
  attempts : ℕ

/-- Where a call stands. -/
inductive Phase where
  | ready (left : ℕ)
  | holding (left seq : ℕ)
  | done (row : Row)
  | raised

/-- What becomes of a statement of a call. -/
inductive Answer where
  | answered
  | failed
  | lost

structure State (ι : Type) (table : Table) where
  register : Register table
  phase : ι → Phase

def State.become (s : State ι table) (w : ι) (phase : Phase) : State ι table :=
  { s with phase := Function.update s.phase w phase }

/-- The next statement of a call: its read of the series, or its insert. -/
def step (callers : ι → Caller) (s : State ι table) (event : ι × Answer) : State ι table :=
  let w := event.1
  match s.phase w with
  | .ready 0 => s.become w .raised
  | .ready (left + 1) =>
    match event.2, (callers w).nextSeq s.register.rows with
    | .answered, .ok seq => s.become w (.holding left seq)
    | _, _ => s.become w .raised
  | .holding left seq =>
    let row := (callers w).row ((callers w).format seq)
    match event.2, s.register.insert row with
    | .failed, _ => s.become w .raised
    | .answered, some inserted => { s.become w (.done row) with register := inserted }
    | .lost, some inserted => { s.become w .raised with register := inserted }
    | _, none => s.become w (.ready left)
  | .done _ | .raised => s

def start (callers : ι → Caller) (register : Register table) : State ι table :=
  ⟨register, fun w => .ready (callers w).attempts⟩

/-- Whoever has finished has its row in the table, under a key of its own. -/
structure Numbered (s : State ι table) : Prop where
  stored : ∀ w row, s.phase w = .done row → row ∈ s.register.rows
  distinct : ∀ w w' row row', w ≠ w' → s.phase w = .done row → s.phase w' = .done row' →
    table.key row ≠ table.key row'

theorem numbered_become {s : State ι table} (h : Numbered s) (hphase : ∀ row, phase ≠ .done row) :
    Numbered (s.become w phase) := by
  have hold : ∀ v row, (s.become w phase).phase v = .done row → s.phase v = .done row := by
    intro v row hv
    by_cases hvw : v = w
    · subst v
      simp only [State.become, Function.update_self] at hv
      exact absurd hv (hphase row)
    · simpa [State.become, hvw] using hv
  refine ⟨fun v row hv => h.stored v row (hold v row hv), ?_⟩
  intro v v' row row' hne hv hv'
  exact h.distinct v v' row row' hne (hold v row hv) (hold v' row' hv')

theorem insert_some {register inserted : Register table} (h : register.insert row = some inserted) :
    inserted.rows = register.rows ++ [row] ∧
      ∀ other ∈ register.rows, table.key other ≠ table.key row := by
  unfold Register.insert at h
  split at h
  · cases h
  · rename_i hnone
    cases h
    exact ⟨rfl, fun other hother hkey => hnone ⟨other, hother, hkey⟩⟩

theorem numbered_insert {s : State ι table} (h : Numbered s)
    (hinsert : s.register.insert row = some inserted) :
    Numbered { s.become w (.done row) with register := inserted } := by
  obtain ⟨hrows, hfresh⟩ := insert_some hinsert
  have hself : ∀ r, (s.become w (.done row)).phase w = .done r → r = row := by
    intro r hr
    simp only [State.become, Function.update_self] at hr
    cases hr
    rfl
  have hold : ∀ v r, v ≠ w → (s.become w (.done row)).phase v = .done r → s.phase v = .done r := by
    intro v r hvw hv
    simpa [State.become, hvw] using hv
  refine ⟨?_, ?_⟩
  · intro v r hv
    change r ∈ inserted.rows
    rw [hrows]
    by_cases hvw : v = w
    · subst v
      rw [hself r hv]
      simp
    · exact List.mem_append_left _ (h.stored v r (hold v r hvw hv))
  · intro v v' r r' hne hv hv'
    by_cases hvw : v = w
    · subst v
      rw [hself r hv]
      exact (hfresh r' (h.stored v' r' (hold v' r' (Ne.symm hne) hv'))).symm
    · by_cases hvw' : v' = w
      · subst v'
        rw [hself r' hv']
        exact hfresh r (h.stored v r (hold v r hvw hv))
      · exact h.distinct v v' r r' hne (hold v r hvw hv) (hold v' r' hvw' hv')

omit [DecidableEq ι] in
theorem numbered_stored {s : State ι table} (h : Numbered s)
    (hinsert : s.register.insert row = some inserted) :
    Numbered { s with register := inserted } := by
  obtain ⟨hrows, -⟩ := insert_some hinsert
  refine ⟨fun w r hw => ?_, h.distinct⟩
  change r ∈ inserted.rows
  rw [hrows]
  exact List.mem_append_left _ (h.stored w r hw)

theorem step_numbered (callers : ι → Caller) {s : State ι table} (h : Numbered s)
    (event : ι × Answer) : Numbered (step callers s event) := by
  unfold step
  dsimp only
  split
  · exact numbered_become h (by simp)
  · split
    · exact numbered_become h (by simp)
    · exact numbered_become h (by simp)
  · split
    · exact numbered_become h (by simp)
    · rename_i hinsert
      exact numbered_insert h hinsert
    · rename_i hinsert
      exact numbered_become (numbered_stored h hinsert) (by simp)
    · exact numbered_become h (by simp)
  · exact h
  · exact h

theorem run_numbered (callers : ι → Caller) (register : Register table)
    (events : List (ι × Answer)) :
    Numbered (events.foldl (step callers) (start callers register)) := by
  have hstart : Numbered (start callers register) :=
    ⟨fun w row h => by simp [start] at h, fun w w' row row' _ h => by simp [start] at h⟩
  revert hstart
  generalize start callers register = s
  intro hs
  induction events generalizing s with
  | nil => exact hs
  | cons event events ih => exact ih _ (step_numbered callers hs event)

end

/-- The next counter is past every counter in use, and an insert with nobody else writing goes
through, exactly when the window holds the highest; and however several calls interleave, two
that finish in one series have two numbers. -/
theorem numbering_converges_iff (table : Table) (register : Register table) (lead : SeriesPrefix)
    (firmId clientId : String) :
    (∃ next, nextSequence register.rows table lead.text (table.scopeOf firmId clientId) = .ok next ∧
      let numbers := numbersIn register.rows (table.scopeOf firmId clientId) lead.text
      ((∀ x ∈ numbers, ∀ n, counterOf lead.text x = some n → n < next) ∧
          ∃ done, insertAlone register lead firmId clientId = .ok done) ↔
        HighestSeen numbers lead.text) ∧
    ∀ (ι : Type) [DecidableEq ι] (callers : ι → Caller) (events : List (ι × Answer)),
      let s := events.foldl (step callers) (start callers register)
      ∀ w w' row row', w ≠ w' → s.phase w = .done row → s.phase w' = .done row' →
        table.scope.map row.value = table.scope.map row'.value → row.number ≠ row'.number := by
  refine ⟨⟨_, next_sequence_ok register.rows table lead.text firmId clientId, ?_⟩, ?_⟩
  · intro numbers
    have hnodup : numbers.Nodup :=
      numbers_in_nodup register (rowOf firmId clientId "") lead.text
    rw [← next_past_iff hnodup]
    constructor
    · intro h
      exact h.1
    · intro h
      exact ⟨h, insert_alone_ok register lead firmId clientId h⟩
  · intro ι _ callers events s w w' row row' hne hw hw' hscope hnumber
    have hdistinct := (run_numbered callers register events).distinct w w' row row' hne hw hw'
    exact hdistinct (Prod.ext hscope hnumber)

/-- A number that is taken and does not move is tried until the attempts are spent. -/
theorem insert_with_number_taken {register : Register table} (attempts : ℕ)
    (hseq : nextSeq register.rows = .ok seq) (htaken : register.insert (row (format seq)) = none) :
    insertWithNumber register row format nextSeq attempts = .error uniqueViolation := by
  induction attempts with
  | zero => rfl
  | succ attempts ih =>
    unfold insertWithNumber
    rw [hseq]
    dsimp only
    rw [htaken]
    exact ih

/-- The rows of one client, numbered in one series. -/
def Register.ofCounters (table : Table) (lead : SeriesPrefix) (firmId clientId : String)
    (counters : List ℕ) (hnodup : counters.Nodup) : Register table where
  rows := counters.map fun n => rowOf firmId clientId (formatNumber lead.text n)
  unique := by
    rw [List.map_map]
    apply hnodup.map
    intro n m h
    exact format_injective lead (congrArg Prod.snd h)

theorem numbers_of_counters (table : Table) (lead : SeriesPrefix) (firmId clientId : String)
    (counters : List ℕ) (hnodup : counters.Nodup) :
    numbersIn (Register.ofCounters table lead firmId clientId counters hnodup).rows
      (table.scopeOf firmId clientId) lead.text = counters.map (formatNumber lead.text) := by
  unfold numbersIn Register.ofCounters
  have hcovered : (counters.map fun n =>
      rowOf firmId clientId (formatNumber lead.text n)).filter
        (table.scopeOf firmId clientId).covers =
      counters.map fun n => rowOf firmId clientId (formatNumber lead.text n) := by
    rw [List.filter_eq_self]
    intro row hrow
    obtain ⟨n, -, rfl⟩ := List.mem_map.mp hrow
    exact (scope_of_covers_iff table (rowOf firmId clientId (formatNumber lead.text n)) _).mpr rfl
  have hnumbers : (counters.map fun n =>
      rowOf firmId clientId (formatNumber lead.text n)).map Row.number =
      counters.map (formatNumber lead.text) := List.map_map
  dsimp only
  rw [hcovered, hnumbers, List.filter_eq_self]
  intro number hnumber
  obtain ⟨n, -, rfl⟩ := List.mem_map.mp hnumber
  unfold formatNumber
  rw [String.toList_append]
  exact decide_eq_true (List.prefix_append _ _)

theorem sequence_after_formats (lead : SeriesPrefix) (counters : List ℕ) :
    sequenceAfter (counters.map (formatNumber lead.text)) lead.text =
      counters.foldl max 0 + 1 := by
  unfold sequenceAfter
  rw [List.foldl_map]
  simp only [counter_of_format, Option.getD_some]

/-- The counters from 9999 down to 9950, and then 10000: so they sort by text, highest first. -/
def pastFourDigits : List ℕ := (List.range 50).map (fun i => 9999 - i) ++ [10000]

def receiptPrefix : SeriesPrefix := ⟨"RCPT-2526-", by decide +kernel⟩

def wideReceipts : Register .receipts :=
  .ofCounters .receipts receiptPrefix "firm" "client" pastFourDigits (by decide +kernel)

theorem wide_numbers :
    numbersIn wideReceipts.rows (Table.receipts.scopeOf "firm" "client") "RCPT-2526-" =
      pastFourDigits.map (formatNumber "RCPT-2526-") :=
  numbers_of_counters .receipts receiptPrefix "firm" "client" pastFourDigits (by decide +kernel)

theorem wide_window : topWindow sequenceWindow (pastFourDigits.map (formatNumber "RCPT-2526-")) =
    (pastFourDigits.take 50).map (formatNumber "RCPT-2526-") := by
  have hchain : (pastFourDigits.map (formatNumber "RCPT-2526-")).IsChain (· ≥ ·) := by
    decide +kernel
  have hsorted : (pastFourDigits.map (formatNumber "RCPT-2526-")).Pairwise (· ≥ ·) :=
    List.isChain_iff_pairwise.mp hchain
  unfold topWindow
  rw [hsorted.insertionSort_eq, List.map_take]
  rfl

theorem numbering_wedged :
    nextSequence wideReceipts.rows .receipts "RCPT-2526-" (Table.receipts.scopeOf "firm" "client") =
        .ok 10000 ∧
      "RCPT-2526-10000" ∈ numbersIn wideReceipts.rows (Table.receipts.scopeOf "firm" "client")
        "RCPT-2526-" ∧
      insertAlone wideReceipts receiptPrefix "firm" "client" = .error uniqueViolation := by
  have hnext : nextSequence wideReceipts.rows .receipts "RCPT-2526-"
      (Table.receipts.scopeOf "firm" "client") = .ok 10000 := by
    have hafter := sequence_after_formats receiptPrefix (pastFourDigits.take 50)
    rw [next_sequence_ok, wide_numbers, wide_window]
    exact congrArg Except.ok (hafter.trans (by decide +kernel))
  have hwide : formatNumber "RCPT-2526-" 10000 = "RCPT-2526-10000" := by decide +kernel
  have hmem : 10000 ∈ pastFourDigits := by decide +kernel
  refine ⟨hnext, ?_, ?_⟩
  · rw [wide_numbers, ← hwide]
    exact List.mem_map_of_mem hmem
  · apply insert_with_number_taken 6 hnext
    unfold Register.insert
    rw [dif_pos]
    exact ⟨rowOf "firm" "client" (formatNumber "RCPT-2526-" 10000), List.mem_map_of_mem hmem, rfl⟩

end Caflow.Numbering
