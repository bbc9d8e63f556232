import Caflow.FixedAssets.Posted

namespace Caflow.FixedAssets

/-- An asset as the register takes it on: bought, or brought over with a stated position. -/
structure Opened (opened : Asset) : Prop where
  mark : opened.register.postedThrough = opened.openingPositionDate
  accumulated : 0 ≤ opened.register.accumulatedPaise
  fy : opened.register.fy = none
  start : opened.register.fyStartAccumPaise = none

/-- The books that accepted postings and reversals lead to, whatever was refused between them. -/
inductive Reached (allowed : Book → ℤ → Prop) (opened : Asset) : Book → Prop
  | start : Reached allowed opened ⟨opened, []⟩
  | post {answers out b b' period} : Reached allowed opened b → allowed b period →
      postOneMonth answers b period = .ok (out, b') → Reached allowed opened b'
  | reverse {answers b b' period} : Reached allowed opened b →
      reverseDepreciation answers b period = .ok b' → Reached allowed opened b'

/-- The book stands as some live entries leave it; only an asset never charged may still carry
another written-down value. -/
def Stands (opened : Asset) (b : Book) (entries : List Entry) (fy start : Option ℤ) : Prop :=
  b = bookOf opened entries fy start ∨
    (b = ⟨opened, []⟩ ∧ entries = [] ∧ fy = none ∧ start = none)

namespace Stands

variable {opened : Asset} {b : Book} {entries : List Entry} {fy start : Option ℤ}

theorem entries_eq (h : Stands opened b entries fy start) : b.entries = entries := by
  rcases h with rfl | ⟨rfl, rfl, -, -⟩ <;> rfl

theorem accumulated (h : Stands opened b entries fy start) :
    b.asset.register.accumulatedPaise = balance opened entries := by
  rcases h with rfl | ⟨rfl, rfl, -, -⟩
  · rfl
  · simp [balance]

theorem mark (h : Stands opened b entries fy start) (ho : Opened opened) :
    b.asset.register.postedThrough = markOf opened entries := by
  rcases h with rfl | ⟨rfl, rfl, -, -⟩
  · rfl
  · simp [markOf, ho.mark]

theorem cache (h : Stands opened b entries fy start) (ho : Opened opened) :
    b.asset.register.fy = fy ∧ b.asset.register.fyStartAccumPaise = start := by
  rcases h with rfl | ⟨rfl, rfl, rfl, rfl⟩
  · exact ⟨rfl, rfl⟩
  · exact ⟨ho.fy, ho.start⟩

theorem charged (h : Stands opened b entries fy start) (opening period : ℤ) :
    b.asset.chargeFor opening period = opened.chargeFor opening period := by
  rcases h with rfl | ⟨rfl, -, -, -⟩ <;> rfl

theorem opening_used (h : Stands opened b entries fy start) (ho : Opened opened) (period : ℤ) :
    b.asset.openingUsed period =
      if fy = some (fyOf period) then start.getD (balance opened entries)
      else balance opened entries := by
  rw [Asset.openingUsed, (h.cache ho).1, (h.cache ho).2, h.accumulated]

theorem ready (h : Stands opened b entries fy start) (ho : Opened opened) :
    Ready b.asset period ↔ Ready (bookOf opened entries fy start).asset period := by
  rcases h with rfl | ⟨rfl, rfl, rfl, rfl⟩
  · rfl
  · have hmark : opened.postedMonth = (bookOf opened [] none none).asset.postedMonth := by
      simp [Asset.postedMonth, bookOf, markOf, ho.mark]
    exact ⟨fun hr => ⟨hr.live, hmark ▸ hr.next, hr.held⟩,
      fun hr => ⟨hr.live, hmark ▸ hr.next, hr.held⟩⟩

theorem charge (h : Stands opened b entries fy start) (ho : Opened opened) (period c : ℤ) :
    b.charge period c = (bookOf opened entries fy start).charge period c := by
  rcases h with rfl | ⟨rfl, rfl, rfl, rfl⟩
  · rfl
  · have hused : opened.openingUsed period = (bookOf opened [] none none).asset.openingUsed period := by
      simp [Asset.openingUsed, bookOf, ho.fy, balance]
    simp [Book.charge, hused, bookOf, balance]

end Stands

/-- The entry a month is charged with follows the ones there are. -/
theorem Consecutive.posted (h : Consecutive opened entries)
    (hready : Ready (bookOf opened entries fy start).asset period) (hpos : 0 < c) :
    Consecutive opened (entries ++ [⟨period, c⟩]) := by
  refine h.concat (fun d hd => hready.next d.month ?_) hready.held hpos hready.live
  simp [Asset.postedMonth, bookOf, hd]

/-- A month that is posted is the next, charged from the balance the row answers with. -/
theorem stands_post (ho : Opened opened) (h : Stands opened b entries fy start)
    (hc : Consecutive opened entries) (hpost : postOneMonth answers b period = .ok (out, b')) :
    b' = b ∨ ∃ c, opened.chargeFor (b.asset.openingUsed period) period = .ok c ∧
      Consecutive opened (entries ++ [⟨period, c⟩]) ∧
      b' = bookOf opened (entries ++ [⟨period, c⟩]) (some (fyOf period))
        (some (b.asset.openingUsed period)) := by
  obtain ⟨hready, c, hcharge, ⟨-, hsame, -⟩ | ⟨hpos, rfl, -⟩⟩ := post_cases hpost
  · exact .inl hsame
  · have hnext := hc.posted ((h.ready ho).mp hready) hpos
    refine .inr ⟨c, h.charged _ _ ▸ hcharge, hnext, ?_⟩
    have hused : (bookOf opened entries fy start).asset.openingUsed period =
        b.asset.openingUsed period := by
      rw [h.opening_used ho, Stands.opening_used (.inl rfl) ho]
    rw [h.charge ho, ← hused]
    exact charge_book fy start hnext

/-- A reversal takes off the last month there is. -/
theorem stands_reverse (ho : Opened opened) (h : Stands opened b entries fy start)
    (hc : Consecutive opened entries) (hreverse : reverseDepreciation answers b period = .ok b') :
    ∃ pre e, entries = pre ++ [e] ∧
      b' = bookOf opened pre (keptCache opened pre fy start).1 (keptCache opened pre fy start).2 := by
  have hposted : b.asset.postedMonth = some period := by
    unfold reverseDepreciation at hreverse
    dsimp only at hreverse
    split at hreverse
    · cases hreverse
    · rename_i posted hp
      split at hreverse
      · cases hreverse
      · rename_i hsame
        rw [hp, not_not.mp hsame]
  cases entries using List.reverseRecOn with
  | nil =>
    -- without an entry there is nothing to find
    unfold reverseDepreciation at hreverse
    simp only [hposted, h.entries_eq, List.find?_nil] at hreverse
    split at hreverse
    · cases hreverse
    · split at hreverse
      · cases hreverse
      · cases hlock : answers.lock <;> simp [hlock] at hreverse
  | append_singleton pre e =>
    rcases h with rfl | ⟨-, hnil, -, -⟩
    · have hperiod : period = e.period := by
        simpa [Asset.postedMonth, bookOf, periodEndDate, eq_comm] using hposted
      rw [hperiod, reverse_book hc ho.accumulated] at hreverse
      split at hreverse
      · cases hreverse
      · exact ⟨pre, e, rfl, (Except.ok.inj hreverse).symm⟩
    · simp at hnil

/-- Whatever was posted and reversed, the live entries are consecutive months and the row stands as
they leave it. -/
theorem Reached.stands (ho : Opened opened) (h : Reached allowed opened b) :
    ∃ entries fy start, Stands opened b entries fy start ∧ Consecutive opened entries := by
  induction h with
  | start => exact ⟨[], none, none, .inr ⟨rfl, rfl, rfl, rfl⟩, .nil⟩
  | post _ _ hpost ih =>
    obtain ⟨entries, fy, start, hstands, hc⟩ := ih
    rcases stands_post ho hstands hc hpost with rfl | ⟨c, -, hnext, rfl⟩
    · exact ⟨entries, fy, start, hstands, hc⟩
    · exact ⟨_, _, _, .inl rfl, hnext⟩
  | reverse _ hreverse ih =>
    obtain ⟨entries, fy, start, hstands, hc⟩ := ih
    obtain ⟨pre, e, rfl, rfl⟩ := stands_reverse ho hstands hc hreverse
    exact ⟨pre, _, _, .inl rfl, hc.dropLast⟩

/-- The balance that a financial year opens with. -/
def yearOpening (opened : Asset) (entries : List Entry) (fy : ℤ) : ℤ :=
  balance opened (entries.filter fun e => fyOf e.period < fy)

variable {e : Entry}

theorem year_opening_concat (opened : Asset) (entries : List Entry) (h : fy ≤ fyOf e.period) :
    yearOpening opened (entries ++ [e]) fy = yearOpening opened entries fy := by
  simp [yearOpening, List.filter_append, not_lt.mpr h]

theorem year_opening_all (h : ∀ e ∈ entries, fyOf e.period < fy) :
    yearOpening opened entries fy = balance opened entries := by
  rw [yearOpening, List.filter_eq_self.mpr fun e he => by simpa using h e he]

/-- A month of a year that has live months is posted only while the row holds that year's opening. -/
def Based (b : Book) (period : ℤ) : Prop :=
  b.asset.register.fy = some (fyOf period) ∨ ∀ e ∈ b.entries, fyOf e.period ≠ fyOf period

/-- Every live month was charged from its year's opening balance, and so is what the row holds. -/
structure Clean (opened : Asset) (entries : List Entry) (fy start : Option ℤ) : Prop where
  charges : ∀ e ∈ entries,
    opened.chargeFor (yearOpening opened entries (fyOf e.period)) e.period = .ok e.chargePaise
  held : ∀ y, fy = some y → start = some (yearOpening opened entries y) ∧
    (markOf opened entries).map (fyOf ·.month) = some y
  blank : fy = none → start = none

theorem Clean.used (h : Clean opened entries fy start) (hc : Consecutive opened (entries ++ [e]))
    (hbased : fy = some (fyOf e.period) ∨ ∀ x ∈ entries, fyOf x.period ≠ fyOf e.period) :
    (if fy = some (fyOf e.period) then start.getD (balance opened entries)
      else balance opened entries) = yearOpening opened entries (fyOf e.period) := by
  by_cases hfy : fy = some (fyOf e.period)
  · rw [if_pos hfy, (h.held _ hfy).1, Option.getD_some]
  · rw [if_neg hfy, year_opening_all fun x hx => ?_]
    have hmono := fy_mono (hc.before_last x hx).le
    have hother := hbased.resolve_left hfy x hx
    omega

theorem Clean.post (h : Clean opened entries fy start) (hc : Consecutive opened (entries ++ [e]))
    (hcharge : opened.chargeFor (yearOpening opened entries (fyOf e.period)) e.period =
      .ok e.chargePaise) :
    Clean opened (entries ++ [e]) (some (fyOf e.period))
      (some (yearOpening opened entries (fyOf e.period))) := by
  refine ⟨fun x hx => ?_, fun y hy => ?_, fun hnone => by cases hnone⟩
  · rcases List.mem_append.mp hx with hx | hx
    · have hle := fy_mono (hc.before_last x hx).le
      rw [year_opening_concat opened entries hle]
      exact h.charges x hx
    · obtain rfl := List.mem_singleton.mp hx
      rw [year_opening_concat opened entries le_rfl]
      exact hcharge
  · obtain rfl := Option.some.inj hy
    rw [year_opening_concat opened entries le_rfl, mark_concat]
    exact ⟨rfl, rfl⟩

theorem Clean.reverse (h : Clean opened (entries ++ [e]) fy start)
    (hc : Consecutive opened (entries ++ [e])) :
    Clean opened entries (keptCache opened entries fy start).1
      (keptCache opened entries fy start).2 := by
  have hmonth : ∀ d, markOf opened entries = some d → fyOf d.month ≤ fyOf e.period := fun d hd =>
    fy_mono (by have := hc.next_of_mark hd; omega)
  refine ⟨fun x hx => ?_, ?_, ?_⟩
  · have hle := fy_mono (hc.before_last x hx).le
    rw [← year_opening_concat opened entries hle]
    exact h.charges x (List.mem_append_left _ hx)
  · unfold keptCache
    split
    · rename_i hkept
      rintro y rfl
      obtain ⟨d, hd, hy⟩ := Option.map_eq_some_iff.mp hkept.2
      refine ⟨?_, hkept.2⟩
      rw [(h.held y rfl).1, year_opening_concat opened entries (hy ▸ hmonth d hd)]
    · rintro y hy
      cases hy
  · unfold keptCache
    split
    · exact h.blank
    · exact fun _ => rfl

/-- In a run whose postings are all based, every month was charged from its year's opening. -/
theorem Reached.clean (ho : Opened opened) (h : Reached Based opened b) :
    ∃ entries fy start, Stands opened b entries fy start ∧ Consecutive opened entries ∧
      Clean opened entries fy start := by
  induction h with
  | start =>
    exact ⟨[], none, none, .inr ⟨rfl, rfl, rfl, rfl⟩, .nil,
      ⟨by simp, fun y hy => (by cases hy), fun _ => rfl⟩⟩
  | post _ hbased hpost ih =>
    obtain ⟨entries, fy, start, hstands, hc, hclean⟩ := ih
    rcases stands_post ho hstands hc hpost with rfl | ⟨c, hcharge, hnext, rfl⟩
    · exact ⟨entries, fy, start, hstands, hc, hclean⟩
    · rw [Based, (hstands.cache ho).1, hstands.entries_eq] at hbased
      rw [hstands.opening_used ho, hclean.used hnext hbased] at hcharge ⊢
      exact ⟨_, _, _, .inl rfl, hnext, hclean.post hnext hcharge⟩
  | reverse _ hreverse ih =>
    obtain ⟨entries, fy, start, hstands, hc, hclean⟩ := ih
    obtain ⟨pre, e, rfl, rfl⟩ := stands_reverse ho hstands hc hreverse
    exact ⟨pre, _, _, .inl rfl, hc.dropLast, hclean.reverse hc⟩

/-- Post months in order, nobody refusing. -/
def postAll : List ℤ → Book → Except Failure Book
  | [], b => .ok b
  | period :: periods, b =>
    match postOneMonth .accepting b period with
    | .error refusal => .error refusal
    | .ok (_, b') => postAll periods b'

/-- Reverse months in order, nobody refusing. -/
def reverseAll : List ℤ → Book → Except Failure Book
  | [], b => .ok b
  | period :: periods, b =>
    match reverseDepreciation .accepting b period with
    | .error refusal => .error refusal
    | .ok b' => reverseAll periods b'

/-- Taking the last months off and posting them again charges each what it was charged before and
leaves the row as it was. -/
def RoundTrip (b : Book) (last : List Entry) : Prop :=
  (reverseAll (last.reverse.map Entry.period) b).bind (postAll (last.map Entry.period)) = .ok b

theorem Consecutive.sorted (h : Consecutive opened entries) :
    entries.Pairwise fun e e' => e.period < e'.period := by
  have hchain : entries.IsChain fun e e' => e.period < e'.period :=
    h.chain.imp fun e e' hnext => by omega
  have htrans : IsTrans Entry fun e e' => e.period < e'.period := ⟨fun _ _ _ => lt_trans⟩
  exact List.isChain_iff_pairwise.mp hchain

theorem Consecutive.take (h : Consecutive opened (pre ++ last)) : Consecutive opened pre := by
  induction last using List.reverseRecOn with
  | nil => simpa using h
  | append_singleton last e ih =>
    rw [← List.append_assoc] at h
    exact ih h.dropLast

/-- The mark only moves on as months are posted. -/
theorem mark_mono (h : Consecutive opened (pre ++ last)) (hpre : markOf opened pre = some d) :
    ∃ d', markOf opened (pre ++ last) = some d' ∧ d.month ≤ d'.month := by
  induction last using List.reverseRecOn with
  | nil => exact ⟨d, by simpa using hpre, le_rfl⟩
  | append_singleton last e ih =>
    rw [← List.append_assoc] at h ⊢
    obtain ⟨d', hd', hle⟩ := ih h.dropLast
    have hnext := h.next_of_mark hd'
    exact ⟨periodEndDate e.period, mark_concat _ _ _, by simp only [periodEndDate]; omega⟩

/-- Between two marks of one year the row keeps what it holds. -/
theorem kept_twice (h : Consecutive opened (pre ++ last)) (hle : ∀ d, markOf opened (pre ++ last) = some d →
      ∀ y, fy = some y → fyOf d.month ≤ y) :
    keptCache opened pre (keptCache opened (pre ++ last) fy start).1
      (keptCache opened (pre ++ last) fy start).2 = keptCache opened pre fy start := by
  by_cases hkept : (markOf opened (pre ++ last)).isSome ∧
      (markOf opened (pre ++ last)).map (fyOf ·.month) = fy
  · rw [keptCache.eq_def opened (pre ++ last), if_pos hkept]
  · rw [keptCache.eq_def opened (pre ++ last), if_neg hkept]
    unfold keptCache
    rw [ite_self]
    by_cases hpre : (markOf opened pre).isSome ∧ (markOf opened pre).map (fyOf ·.month) = fy
    · -- the year of the earlier mark is the row's, so that of the later one is too
      obtain ⟨d, hd⟩ := Option.isSome_iff_exists.mp hpre.1
      obtain ⟨d', hd', hmonth⟩ := mark_mono h hd
      have hfy : fy = some (fyOf d.month) := by rw [← hpre.2, hd, Option.map_some]
      have hsame : fyOf d'.month = fyOf d.month :=
        le_antisymm (hle d' hd' _ hfy) (fy_mono hmonth)
      exact absurd ⟨by simp [hd'], by rw [hd', Option.map_some, hsame, hfy]⟩ hkept
    · rw [if_neg hpre]

/-- Reversing the last months one by one leaves the book of the months before them. -/
theorem reverse_all (ho : Opened opened) (h : Consecutive opened (pre ++ last))
    (hheld : ∀ y, fy = some y → (markOf opened (pre ++ last)).map (fyOf ·.month) = some y)
    (hlast : last ≠ []) :
    reverseAll (last.reverse.map Entry.period) (bookOf opened (pre ++ last) fy start) =
      .ok (bookOf opened pre (keptCache opened pre fy start).1 (keptCache opened pre fy start).2) := by
  induction last using List.reverseRecOn generalizing fy start with
  | nil => exact absurd rfl hlast
  | append_singleton last e ih =>
    rw [← List.append_assoc] at h hheld ⊢
    rw [List.reverse_concat, List.map_cons, reverseAll, reverse_book h ho.accumulated]
    simp only [Answers.accepting, Option.none_or]
    by_cases hnil : last = []
    · subst hnil
      simp [reverseAll]
    · have hyear : ∀ y, fy = some y → y = fyOf e.period := fun y hy => by
        have := hheld y hy
        rw [mark_concat] at this
        exact (Option.some.inj this).symm
      have hmonth : ∀ d, markOf opened (pre ++ last) = some d → fyOf d.month ≤ fyOf e.period :=
        fun d hd => fy_mono (by have := h.next_of_mark hd; omega)
      rw [ih h.dropLast (fun y hy => ?_) hnil,
        kept_twice h.dropLast fun d hd y hy => hyear y hy ▸ hmonth d hd]
      unfold keptCache at hy
      split at hy
      · rename_i hkept
        rw [hkept.2]
        exact hy
      · cases hy

/-- A month whose charge from the balance used is its entry's comes back as that entry. -/
theorem post_step (h : Consecutive opened (pre ++ [e]))
    (hcharge : opened.chargeFor ((bookOf opened pre fy start).asset.openingUsed e.period) e.period =
      .ok e.chargePaise) :
    ∃ out, postOneMonth .accepting (bookOf opened pre fy start) e.period =
      .ok (out, bookOf opened (pre ++ [e]) (some (fyOf e.period))
        (some ((bookOf opened pre fy start).asset.openingUsed e.period))) := by
  obtain ⟨foreclosed, hposted⟩ := post_ready (ready_book h) hcharge (h.charged e (by simp))
  exact ⟨_, by rw [hposted, charge_book fy start h]⟩

theorem book_used (opened : Asset) (entries : List Entry) (fy start : Option ℤ) (period : ℤ) :
    (bookOf opened entries fy start).asset.openingUsed period =
      if fy = some (fyOf period) then start.getD (balance opened entries)
      else balance opened entries := rfl

/-- Where no earlier live month is of a month's year, the earlier ones make up that year's opening. -/
theorem year_opening_first (h : Consecutive opened (pre ++ e :: rest))
    (hother : ∀ x ∈ pre, fyOf x.period ≠ fyOf e.period) :
    yearOpening opened (pre ++ e :: rest) (fyOf e.period) = balance opened pre := by
  have hsorted := List.pairwise_append.mp h.sorted
  have hbefore : ∀ x ∈ pre, fyOf x.period < fyOf e.period := by
    intro x hx
    have hle := fy_mono (hsorted.2.2 x hx e (by simp)).le
    have := hother x hx
    omega
  have hafter : ∀ x ∈ e :: rest, ¬ fyOf x.period < fyOf e.period := by
    intro x hx
    rcases List.mem_cons.mp hx with rfl | hx
    · exact lt_irrefl _
    · exact not_lt.mpr (fy_mono ((List.pairwise_cons.mp hsorted.2.1).1 x hx).le)
  unfold yearOpening
  rw [List.filter_append, List.filter_eq_self.mpr fun x hx => by simpa using hbefore x hx,
    List.filter_eq_nil_iff.mpr fun x hx => by simpa using hafter x hx, List.append_nil]

/-- All the months before one of a later year make up that year's opening. -/
theorem year_opening_before (h : Consecutive opened (pre ++ [e] ++ e' :: rest))
    (hyear : fyOf e.period ≠ fyOf e'.period) :
    yearOpening opened (pre ++ [e] ++ e' :: rest) (fyOf e'.period) = balance opened (pre ++ [e]) := by
  refine year_opening_first h fun x hx => ?_
  have hlast := fy_mono ((List.pairwise_append.mp h.sorted).2.2 e (by simp) e' (by simp)).le
  rcases List.mem_append.mp hx with hx | hx
  · have hle := fy_mono (h.take.before_last x hx).le
    omega
  · exact List.mem_singleton.mp hx ▸ hyear

/-- Once the first month's year is charged as it was, the others follow, and the row ends with the
last month's year. -/
theorem post_all (h : Consecutive opened (pre ++ e :: rest))
    (hcharges : ∀ x ∈ pre ++ e :: rest, opened.chargeFor
      (yearOpening opened (pre ++ e :: rest) (fyOf x.period)) x.period = .ok x.chargePaise)
    (hfirst : ∀ x ∈ e :: rest, fyOf x.period = fyOf e.period →
      opened.chargeFor ((bookOf opened pre fy start).asset.openingUsed e.period) x.period =
        .ok x.chargePaise) :
    postAll ((e :: rest).map Entry.period) (bookOf opened pre fy start) =
      .ok (bookOf opened (pre ++ e :: rest)
        (some (fyOf ((e :: rest).getLast (List.cons_ne_nil e rest)).period))
        (some (if fyOf e.period = fyOf ((e :: rest).getLast (List.cons_ne_nil e rest)).period
          then (bookOf opened pre fy start).asset.openingUsed e.period
          else yearOpening opened (pre ++ e :: rest)
            (fyOf ((e :: rest).getLast (List.cons_ne_nil e rest)).period)))) := by
  induction rest generalizing pre e fy start with
  | nil =>
    obtain ⟨out, hpost⟩ := post_step h (hfirst e (by simp) rfl)
    simp [postAll, hpost]
  | cons e' rest ih =>
    have hsplit : pre ++ e :: e' :: rest = pre ++ [e] ++ e' :: rest := by simp
    have hpre : Consecutive opened (pre ++ [e]) := (hsplit ▸ h).take
    obtain ⟨out, hpost⟩ := post_step hpre (hfirst e (by simp) rfl)
    have hsorted := (List.pairwise_append.mp h.sorted).2.1
    have hnext : fyOf e.period ≤ fyOf e'.period :=
      fy_mono ((List.pairwise_cons.mp hsorted).1 e' (by simp)).le
    set used := (bookOf opened pre fy start).asset.openingUsed e.period
    have hused : (bookOf opened (pre ++ [e]) (some (fyOf e.period)) (some used)).asset.openingUsed
        e'.period = if fyOf e.period = fyOf e'.period then used
          else yearOpening opened (pre ++ e :: e' :: rest) (fyOf e'.period) := by
      rw [book_used]
      by_cases hyear : fyOf e.period = fyOf e'.period
      · rw [if_pos (by rw [hyear]), if_pos hyear, Option.getD_some]
      · rw [if_neg (by simpa using hyear), if_neg hyear, hsplit,
          year_opening_before (hsplit ▸ h) hyear]
    have hfirst' : ∀ x ∈ e' :: rest, fyOf x.period = fyOf e'.period → opened.chargeFor
        ((bookOf opened (pre ++ [e]) (some (fyOf e.period)) (some used)).asset.openingUsed e'.period)
        x.period = .ok x.chargePaise := by
      intro x hx hyear
      rw [hused]
      split
      · rename_i hsame
        exact hfirst x (List.mem_cons_of_mem e hx) (hyear.trans hsame.symm)
      · rw [← hyear]
        exact hcharges x (List.mem_append_right _ (List.mem_cons_of_mem e hx))
    have hrest := ih (hsplit ▸ h) (hsplit ▸ hcharges) hfirst'
    rw [List.map_cons, postAll, hpost]
    dsimp only
    rw [hrest, hused, ← hsplit]
    have hlast : (e :: e' :: rest).getLast (List.cons_ne_nil e (e' :: rest)) =
        (e' :: rest).getLast (List.cons_ne_nil e' rest) := List.getLast_cons _
    rw [hlast]
    congr 3
    have hend : fyOf e'.period ≤ fyOf ((e' :: rest).getLast (List.cons_ne_nil e' rest)).period := by
      rcases List.mem_cons.mp (List.getLast_mem (List.cons_ne_nil e' rest)) with hz | hz
      · rw [hz]
      · exact fy_mono ((List.pairwise_cons.mp (List.pairwise_cons.mp hsorted).2).1 _ hz).le
    by_cases hsame : fyOf e.period = fyOf ((e' :: rest).getLast (List.cons_ne_nil e' rest)).period
    · rw [if_pos hsame, if_pos (by omega), if_pos (by omega)]
    · rw [if_neg hsame]
      by_cases hyear : fyOf e'.period = fyOf ((e' :: rest).getLast (List.cons_ne_nil e' rest)).period
      · rw [if_pos hyear, if_neg (by omega), hyear]
      · rw [if_neg hyear]

/-- The whole months that the last of a book can be taken off and put back for: the row holds the
year of the last month, and the months taken off begin a year among the live ones, or stay in the
year the row holds, or begin with one that the balance left charges the same. -/
def Returns (b : Book) (pre : List Entry) : List Entry → Prop
  | [] => True
  | e :: rest => b.asset.register.fy = b.asset.postedMonth.map fyOf ∧
      ((∀ x ∈ pre, fyOf x.period ≠ fyOf e.period) ∨ b.asset.register.fy = some (fyOf e.period) ∨
        b.asset.chargeFor (b.asset.register.accumulatedPaise -
          ((e :: rest).map Entry.chargePaise).sum) e.period = .ok e.chargePaise)

/-- Posting only adds entries, one for a month at most. -/
theorem post_all_grows (h : postAll periods b = .ok b') :
    ∃ more, b'.entries = b.entries ++ more ∧ more.length ≤ periods.length := by
  induction periods generalizing b with
  | nil =>
    obtain rfl := Except.ok.inj h
    exact ⟨[], by simp, le_rfl⟩
  | cons period periods ih =>
    rw [postAll] at h
    split at h
    · cases h
    · rename_i out b₁ hpost
      obtain ⟨more, hmore, hlen⟩ := ih h
      obtain ⟨-, c, -, ⟨-, rfl, -⟩ | ⟨-, rfl, -⟩⟩ := post_cases hpost
      · exact ⟨more, hmore, by rw [List.length_cons]; omega⟩
      · unfold Book.charge at hmore
        dsimp only at hmore
        split at hmore
        · exact ⟨more, hmore, by rw [List.length_cons]; omega⟩
        · exact ⟨⟨period, c⟩ :: more, by rw [hmore]; simp, by
            rw [List.length_cons, List.length_cons]
            omega⟩

/-- Where as many entries came as there were months, each month was charged with its entry. -/
theorem post_all_first (h : Consecutive opened pre)
    (hpost : postAll (period :: periods) (bookOf opened pre fy start) = .ok b')
    (hentries : b'.entries = pre ++ e :: rest) (hlen : rest.length = periods.length) :
    e.period = period ∧ opened.chargeFor
      ((bookOf opened pre fy start).asset.openingUsed period) period = .ok e.chargePaise ∧
      Consecutive opened (pre ++ [e]) ∧
      postAll periods (bookOf opened (pre ++ [e]) (some (fyOf period))
        (some ((bookOf opened pre fy start).asset.openingUsed period))) = .ok b' := by
  rw [postAll] at hpost
  split at hpost
  · cases hpost
  · rename_i out b₁ hone
    obtain ⟨hready, c, hcharge, ⟨-, rfl, -⟩ | ⟨hpos, rfl, -⟩⟩ := post_cases hone
    · obtain ⟨more, hmore, hless⟩ := post_all_grows hpost
      rw [hentries] at hmore
      have := congrArg List.length hmore
      simp [bookOf] at this
      omega
    · have hnext := h.posted hready hpos
      have hbook := charge_book fy start hnext
      dsimp only at hbook
      rw [hbook] at hpost
      obtain ⟨more, hmore, -⟩ := post_all_grows hpost
      have hsame : e :: rest = ⟨period, c⟩ :: more := by
        have : pre ++ e :: rest = pre ++ (⟨period, c⟩ :: more) := by
          rw [← hentries, hmore]
          simp [bookOf]
        exact List.append_cancel_left this
      obtain ⟨rfl, rfl⟩ := List.cons.inj hsame
      exact ⟨rfl, hcharge, hnext, hpost⟩

/-- The row then holds the year of the last month posted. -/
theorem post_all_year (h : Consecutive opened pre)
    (hpost : postAll (period :: periods) (bookOf opened pre fy start) = .ok b')
    (hentries : b'.entries = pre ++ e :: rest) (hlen : rest.length = periods.length) :
    b'.asset.register.fy = b'.asset.postedMonth.map fyOf := by
  induction periods generalizing pre period e rest fy start with
  | nil =>
    obtain ⟨-, -, hnext, hlast⟩ := post_all_first h hpost hentries hlen
    obtain rfl := Except.ok.inj hlast
    obtain ⟨hperiod, -⟩ := post_all_first h hpost hentries hlen
    simp [bookOf, Asset.postedMonth, periodEndDate, hperiod]
  | cons period' periods ih =>
    obtain ⟨-, -, hnext, hlast⟩ := post_all_first h hpost hentries hlen
    cases rest with
    | nil => simp at hlen
    | cons e' rest =>
      have hsplit : b'.entries = pre ++ [e] ++ e' :: rest := by simp [hentries]
      exact ih hnext hlast hsplit (by simpa using hlen)

/-- The balance the first of the months taken off is charged from when it is put back. -/
theorem take_off_used (h : Consecutive opened (pre ++ e :: rest))
    (hclean : Clean opened (pre ++ e :: rest) fy start) :
    (bookOf opened pre (keptCache opened pre fy start).1
      (keptCache opened pre fy start).2).asset.openingUsed e.period =
      if (∀ x ∈ pre, fyOf x.period ≠ fyOf e.period) ∨ fy = some (fyOf e.period)
      then yearOpening opened (pre ++ e :: rest) (fyOf e.period) else balance opened pre := by
  rw [book_used]
  by_cases hkept : (keptCache opened pre fy start).1 = some (fyOf e.period)
  · rw [if_pos hkept]
    unfold keptCache at hkept ⊢
    split at hkept
    · rename_i hsame
      rw [if_pos hsame, if_pos (.inr hkept), (hclean.held _ hkept).1, Option.getD_some]
    · cases hkept
  · rw [if_neg hkept]
    split
    · rename_i hcond
      refine (year_opening_first h ?_).symm
      rcases hcond with hother | hfy
      · exact hother
      · -- the row held the year and lost it, so that the mark went back to an earlier one
        intro x hx hyear
        obtain ⟨init, last, rfl⟩ : ∃ init last, pre = init ++ [last] :=
          ⟨pre.dropLast, pre.getLast (List.ne_nil_of_mem hx), (List.dropLast_append_getLast _).symm⟩
        have hle : fyOf x.period ≤ fyOf last.period := by
          rcases List.mem_append.mp hx with hx | hx
          · exact fy_mono (h.take.before_last x hx).le
          · exact List.mem_singleton.mp hx ▸ le_rfl
        have hlast := fy_mono ((List.pairwise_append.mp h.sorted).2.2 last (by simp) e (by simp)).le
        have hsame : (markOf opened (init ++ [last])).map (fyOf ·.month) = fy := by
          rw [mark_concat, hfy]
          exact congrArg some (le_antisymm hlast (hyear ▸ hle))
        refine hkept ?_
        unfold keptCache
        rw [if_pos ⟨by rw [mark_concat]; rfl, hsame⟩]
        exact hfy
    · rfl

/-- Outside the purchase month every month of a year is charged alike. -/
theorem charge_alike (asset : Asset) (opening : ℤ) (hm : m ≠ asset.purchaseDate.month)
    (hn : n ≠ asset.purchaseDate.month) : asset.chargeFor opening m = asset.chargeFor opening n := by
  unfold Asset.chargeFor Asset.monthlyCharge
  simp only [if_neg hm, if_neg hn]

/-- Months charged from the balance left come back where the first of them does. -/
theorem charge_from_left (h : Consecutive opened (pre ++ e :: rest))
    (hclean : Clean opened (pre ++ e :: rest) fy start)
    (hsome : ∃ y ∈ pre, fyOf y.period = fyOf e.period)
    (hcharge : opened.chargeFor (balance opened pre) e.period = .ok e.chargePaise)
    (hx : x ∈ e :: rest) (hyear : fyOf x.period = fyOf e.period) :
    opened.chargeFor (balance opened pre) x.period = .ok x.chargePaise := by
  obtain ⟨y, hy, -⟩ := hsome
  have hsorted := List.pairwise_append.mp h.sorted
  have hlater : ∀ z ∈ e :: rest, z.period ≠ opened.purchaseDate.month := fun z hz => by
    have := hsorted.2.2 y hy z hz
    have := h.held y (List.mem_append_left _ hy)
    omega
  have hfirst := hclean.charges e (List.mem_append_right _ (by simp))
  have hthis := hclean.charges x (List.mem_append_right _ hx)
  rw [hyear, charge_alike opened _ (hlater x hx) (hlater e (by simp)), hfirst] at hthis
  rw [charge_alike opened _ (hlater x hx) (hlater e (by simp)), hcharge, hthis]

theorem balance_append (opened : Asset) (entries last : List Entry) :
    balance opened (entries ++ last) - (last.map Entry.chargePaise).sum = balance opened entries := by
  simp only [balance, List.map_append, List.sum_append]
  omega

/-- Months taken off a book and put back restore it exactly if they return. -/
theorem round_trip_iff (ho : Opened opened) (h : Consecutive opened (pre ++ e :: rest))
    (hclean : Clean opened (pre ++ e :: rest) fy start) :
    RoundTrip (bookOf opened (pre ++ e :: rest) fy start) (e :: rest) ↔
      Returns (bookOf opened (pre ++ e :: rest) fy start) pre (e :: rest) := by
  have hoff : reverseAll ((e :: rest).reverse.map Entry.period)
      (bookOf opened (pre ++ e :: rest) fy start) = _ :=
    reverse_all ho h (fun y hy => (hclean.held y hy).2) (List.cons_ne_nil e rest)
  have hused := take_off_used h hclean
  have hleft := balance_append opened pre (e :: rest)
  unfold RoundTrip Returns
  rw [hoff]
  constructor
  · intro hback
    refine ⟨post_all_year h.take hback rfl (by simp), ?_⟩
    by_cases hcond : (∀ x ∈ pre, fyOf x.period ≠ fyOf e.period) ∨ fy = some (fyOf e.period)
    · exact hcond.elim .inl (.inr ∘ .inl)
    · obtain ⟨-, hcharge, -⟩ := post_all_first h.take hback rfl (by simp)
      rw [hused, if_neg hcond, ← hleft] at hcharge
      exact .inr (.inr hcharge)
  · rintro ⟨hfy, hcond⟩
    have hmark : fy = (markOf opened (pre ++ e :: rest)).map (fyOf ·.month) := by
      have : fy = ((markOf opened (pre ++ e :: rest)).map Day.month).map fyOf := hfy
      rw [this, Option.map_map]
      rfl
    have hfirst : ∀ x ∈ e :: rest, fyOf x.period = fyOf e.period → opened.chargeFor
        ((bookOf opened pre (keptCache opened pre fy start).1
          (keptCache opened pre fy start).2).asset.openingUsed e.period) x.period =
          .ok x.chargePaise := by
      intro x hx hyear
      rw [hused]
      split
      · rw [← hyear]
        exact hclean.charges x (List.mem_append_right _ hx)
      · rename_i hneither
        have hcharge : opened.chargeFor (balance opened pre) e.period = .ok e.chargePaise := by
          rw [← hleft]
          exact (hcond.resolve_left (hneither ∘ .inl)).resolve_left (hneither ∘ .inr)
        push Not at hneither
        exact charge_from_left h hclean hneither.1 hcharge hx hyear
    have hpost := post_all h hclean.charges hfirst
    have hend : markOf opened (pre ++ e :: rest) =
        some (periodEndDate ((e :: rest).getLast (List.cons_ne_nil e rest)).period) := by
      conv_lhs => rw [← List.dropLast_append_getLast (List.cons_ne_nil e rest), ← List.append_assoc]
      exact mark_concat _ _ _
    have hlast : fy = some (fyOf ((e :: rest).getLast (List.cons_ne_nil e rest)).period) := by
      rw [hmark, hend]
      rfl
    refine hpost.trans ?_
    have hstart : some (if fyOf e.period = fyOf ((e :: rest).getLast (List.cons_ne_nil e rest)).period
        then (bookOf opened pre (keptCache opened pre fy start).1
          (keptCache opened pre fy start).2).asset.openingUsed e.period
        else yearOpening opened (pre ++ e :: rest)
          (fyOf ((e :: rest).getLast (List.cons_ne_nil e rest)).period)) = start := by
      refine Eq.trans ?_ (hclean.held _ hlast).1.symm
      split
      · rename_i hsame
        rw [hused, if_pos (.inr (hlast.trans (congrArg some hsame.symm))), hsame]
      · rfl
    rw [hstart, ← hlast]

/-- Depreciation posted and reversed: the accumulated depreciation and the mark are those of the
live months, which are consecutive; and where postings are based, taking months off and posting them
again restores the row exactly if they return. -/
theorem depreciation_undone_and_redone (opened : Asset) (ho : Opened opened) :
    (∀ b, Reached (fun _ _ => True) opened b →
      b.asset.register.accumulatedPaise =
          opened.register.accumulatedPaise + (b.entries.map Entry.chargePaise).sum ∧
        b.entries.IsChain (fun e e' => e'.period = e.period + 1) ∧
        b.asset.register.postedThrough = markOf opened b.entries) ∧
    (∀ b, Reached Based opened b → ∀ pre last, b.entries = pre ++ last →
      (RoundTrip b last ↔ Returns b pre last)) := by
  constructor
  · intro b hreached
    obtain ⟨entries, fy, start, hstands, hc⟩ := hreached.stands ho
    rw [hstands.entries_eq]
    exact ⟨hstands.accumulated, hc.chain, hstands.mark ho⟩
  · intro b hreached pre last hentries
    obtain ⟨entries, fy, start, hstands, hc, hclean⟩ := hreached.clean ho
    rw [hstands.entries_eq] at hentries
    subst hentries
    cases last with
    | nil => exact iff_of_true rfl trivial
    | cons e rest =>
      have hbook : b = bookOf opened (pre ++ e :: rest) fy start :=
        hstands.resolve_right fun h => by simp at h
      subst hbook
      exact round_trip_iff ho hc hclean

/-- A computer bought in June 2025 for 12,000 rupees, written down at 40 percent. -/
def laptop : Asset :=
  { category := "Computer & IT Equipment", purchaseDate := ⟨24305, 10⟩, purchaseCostPaise := 1200000,
    salvageValuePaise := 0, method := .wdv, usefulLifeYears := some 3, wdvRatePercent := some 40,
    isDisposed := false, openingPositionDate := none,
    register := ⟨0, 1200000, none, none, none⟩ }

/-- The computer with February, March and April 2026 charged. -/
def laptopBook : Book :=
  bookOf laptop [⟨24313, 40000⟩, ⟨24314, 40000⟩, ⟨24315, 37333⟩] (some 2026) (some 80000)

theorem laptop_opened : Opened laptop := ⟨rfl, by decide, rfl, rfl⟩

theorem laptop_reached : Reached Based laptop laptopBook := by
  have hfebruary : Reached Based laptop (bookOf laptop [⟨24313, 40000⟩] (some 2025) (some 0)) :=
    .post (b := ⟨laptop, []⟩) .start (.inr (by simp))
      (show postOneMonth .accepting ⟨laptop, []⟩ 24313 = .ok (.posted 40000
        [24305, 24306, 24307, 24308, 24309, 24310, 24311, 24312], _) by decide +kernel)
  have hmarch : Reached Based laptop
      (bookOf laptop [⟨24313, 40000⟩, ⟨24314, 40000⟩] (some 2025) (some 0)) :=
    .post hfebruary (.inl (by decide))
      (show postOneMonth .accepting _ 24314 = .ok (.posted 40000 [], _) by decide +kernel)
  exact .post hmarch (.inr (by decide))
    (show postOneMonth .accepting _ 24315 = .ok (.posted 37333 [], _) by decide +kernel)

/-- April, the first month of its year, comes back as it was. -/
theorem april_returns : RoundTrip laptopBook [⟨24315, 37333⟩] :=
  ((depreciation_undone_and_redone laptop laptop_opened).2 laptopBook laptop_reached
    [⟨24313, 40000⟩, ⟨24314, 40000⟩] [⟨24315, 37333⟩] rfl).mpr
    ⟨by decide, .inl (by decide)⟩

theorem Reached.of_based (h : Reached Based opened b) : Reached (fun _ _ => True) opened b := by
  induction h with
  | start => exact .start
  | post _ _ hpost ih => exact .post ih trivial hpost
  | reverse _ hreverse ih => exact .reverse ih hreverse

/-- March, taken off with April, is charged 38,666 paise from the balance February left, where it was
charged 40,000 from the opening of its year. -/
theorem march_comes_back_smaller :
    Opened laptop ∧ Reached (fun _ _ => True) laptop laptopBook ∧
      laptopBook.entries = [⟨24313, 40000⟩] ++ [⟨24314, 40000⟩, ⟨24315, 37333⟩] ∧
      ¬ RoundTrip laptopBook [⟨24314, 40000⟩, ⟨24315, 37333⟩] ∧
      ((reverseAll [24315, 24314] laptopBook).bind (postAll [24314, 24315])).map Book.entries =
        .ok [⟨24313, 40000⟩, ⟨24314, 38666⟩, ⟨24315, 37377⟩] := by
  have hback : ((reverseAll [24315, 24314] laptopBook).bind (postAll [24314, 24315])).map
      Book.entries = .ok [⟨24313, 40000⟩, ⟨24314, 38666⟩, ⟨24315, 37377⟩] := by
    decide +kernel
  refine ⟨laptop_opened, laptop_reached.of_based, rfl, fun hsame => ?_, hback⟩
  have hsame : (reverseAll [24315, 24314] laptopBook).bind (postAll [24314, 24315]) =
      .ok laptopBook := hsame
  rw [hsame] at hback
  simp [Except.map, laptopBook, bookOf] at hback

end Caflow.FixedAssets
