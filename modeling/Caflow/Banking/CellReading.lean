import Caflow.Banking.CellText

namespace Caflow.Banking
open Text (isSpace strip)
open IsoDate (Date digits digit)

/-! ### Dates -/

/-- A text that spells a day of the calendar in one of the ways a statement does: in figures, in ISO
form, or with the month's name. -/
inductive Spelled : List Char → Date → Prop where
  | numeric (d : Date) (day month : List Char) (sep sep' : Char)
      (hday : digitRun 1 2 day = true ∧ number day = d.day)
      (hmonth : digitRun 1 2 month = true ∧ number month = d.month)
      (hsep : sep ∈ ['/', '-', '.']) (hsep' : sep' ∈ ['/', '-', '.']) :
      Spelled (day ++ sep :: (month ++ sep' :: digits 4 d.year)) d
  | iso (d : Date) : Spelled d.text.toList d
  | named (d : Date) (day month : List Char) (sep sep' : Char)
      (hday : digitRun 1 2 day = true ∧ number day = d.day)
      (hmonth : monthNames[d.month - 1]? = some (lower month))
      (hletters : month.all Char.isAlpha = true)
      (hsep : sep ∈ [' ', '-']) (hsep' : sep' ∈ [' ', '-']) :
      Spelled (day ++ sep :: (month ++ sep' :: digits 4 d.year)) d

theorem digit_is_digit (n : ℕ) : isDigit (digit n) = true := by
  have htable : ∀ i : Fin 10, isDigit (Char.ofNat (48 + i)) = true := by decide +kernel
  exact htable ⟨n % 10, Nat.mod_lt n (by decide)⟩

theorem digits_are_digits (width n : ℕ) : ∀ c ∈ digits width n, isDigit c = true := by
  induction width generalizing n with
  | zero => exact fun c hc => absurd hc List.not_mem_nil
  | succ width ih =>
    intro c hc
    rcases List.mem_append.mp hc with hfront | hlast
    · exact ih (n / 10) c hfront
    · rw [List.mem_singleton.mp hlast]
      exact digit_is_digit n

theorem digit_run_digits (width n : ℕ) : digitRun width width (digits width n) = true := by
  unfold digitRun
  rw [IsoDate.digits_length]
  simp only [Nat.le_refl, decide_true, Bool.true_and]
  exact List.all_eq_true.mpr (digits_are_digits width n)

theorem digit_run_all {least most : ℕ} {cs : List Char} (h : digitRun least most cs = true) :
    ∀ c ∈ cs, isDigit c = true := by
  unfold digitRun at h
  rw [Bool.and_eq_true] at h
  exact List.all_eq_true.mp h.2

/-- No digit is one of the marks that stand between figures. -/
theorem digit_apart {c : Char} (h : isDigit c = true) {d : Char} (hd : isDigit d = false) : c ≠ d := by
  rintro rfl
  rw [hd] at h
  cases h

/-- Three pieces free of separators are the three pieces of the text they make. -/
theorem split_three {p : Char → Bool} {a b c : List Char} {sep sep' : Char}
    (ha : ∀ x ∈ a, p x = false) (hb : ∀ x ∈ b, p x = false) (hc : ∀ x ∈ c, p x = false)
    (hsep : p sep = true) (hsep' : p sep' = true) :
    (a ++ sep :: (b ++ sep' :: c)).splitOnP p = [a, b, c] := by
  rw [List.splitOnP_append_cons_of_forall_mem ha sep hsep,
    List.splitOnP_append_cons_of_forall_mem hb sep' hsep', List.splitOnP_eq_singleton hc]

/-- A character that separates nothing stands in one of the pieces. -/
theorem mem_piece {p : Char → Bool} {cs : List Char} {c : Char} (hc : c ∈ cs) (hp : p c = false) :
    ∃ w ∈ cs.splitOnP p, c ∈ w := by
  induction cs with
  | nil => cases hc
  | cons d cs ih =>
    obtain ⟨first, rest, hsplit⟩ := List.exists_cons_of_ne_nil (List.splitOnP_ne_nil p cs)
    rw [List.splitOnP_cons_eq_if_modifyHead]
    split
    · rename_i hd
      rcases List.mem_cons.mp hc with rfl | hmem
      · rw [hp] at hd
        cases hd
      · obtain ⟨w, hw, hcw⟩ := ih hmem
        exact ⟨w, List.mem_cons_of_mem _ hw, hcw⟩
    · rw [hsplit, List.modifyHead_cons]
      rcases List.mem_cons.mp hc with rfl | hmem
      · exact ⟨c :: first, List.mem_cons_self, List.mem_cons_self⟩
      · obtain ⟨w, hw, hcw⟩ := ih hmem
        rw [hsplit] at hw
        rcases List.mem_cons.mp hw with rfl | hrest
        · exact ⟨d :: w, List.mem_cons_self, List.mem_cons_of_mem _ hcw⟩
        · exact ⟨w, List.mem_cons_of_mem _ hrest, hcw⟩

/-- A text in figures has digits between its marks and nothing else. -/
theorem numeric_date_digits {cs iso : List Char} (h : numericDate cs = some iso) {c : Char}
    (hc : c ∈ cs) : isDigit c = true ∨ c = '/' ∨ c = '-' ∨ c = '.' := by
  by_cases hsep : (c = '/' || c = '-' || c = '.') = true
  · simp only [Bool.or_eq_true, decide_eq_true_eq] at hsep
    tauto
  · obtain ⟨w, hw, hcw⟩ :=
      mem_piece (p := fun c => c = '/' || c = '-' || c = '.') hc (by simpa using hsep)
    unfold numericDate at h
    split at h
    · rename_i day month year hsplit
      split at h
      · rename_i hruns
        simp only [Bool.and_eq_true] at hruns
        rw [hsplit] at hw
        simp only [List.mem_cons, List.not_mem_nil, or_false] at hw
        rcases hw with rfl | rfl | rfl
        · exact Or.inl (digit_run_all hruns.1.1 c hcw)
        · exact Or.inl (digit_run_all hruns.1.2 c hcw)
        · exact Or.inl (digit_run_all hruns.2 c hcw)
      · cases h
    · cases h

theorem iso_shaped_digits {cs : List Char} (h : isoShaped cs = true) {c : Char} (hc : c ∈ cs) :
    isDigit c = true ∨ c = '-' := by
  by_cases hsep : c = '-'
  · exact Or.inr hsep
  · obtain ⟨w, hw, hcw⟩ := mem_piece (p := (· = '-')) hc (by simpa using hsep)
    unfold isoShaped at h
    split at h
    · rename_i year month day hsplit
      simp only [Bool.and_eq_true] at h
      rw [hsplit] at hw
      simp only [List.mem_cons, List.not_mem_nil, or_false] at hw
      rcases hw with rfl | rfl | rfl
      · exact Or.inl (digit_run_all h.1.1 c hcw)
      · exact Or.inl (digit_run_all h.1.2 c hcw)
      · exact Or.inl (digit_run_all h.2 c hcw)
    · cases h

theorem iso_text_eq (d : Date) : isoText (digits 4 d.year) d.month d.day = d.text.toList := by
  rw [Date.text, String.toList_ofList]
  rfl

theorem numeric_date_read {d : Date} {day month : List Char} {sep sep' : Char}
    (hday : digitRun 1 2 day = true ∧ number day = d.day)
    (hmonth : digitRun 1 2 month = true ∧ number month = d.month)
    (hsep : sep ∈ ['/', '-', '.']) (hsep' : sep' ∈ ['/', '-', '.']) :
    numericDate (day ++ sep :: (month ++ sep' :: digits 4 d.year)) = some d.text.toList := by
  have hpiece : ∀ {w : List Char}, (∀ c ∈ w, isDigit c = true) →
      ∀ c ∈ w, (decide (c = '/') || decide (c = '-') || decide (c = '.')) = false := by
    intro w hw c hc
    have hslash := digit_apart (hw c hc) (d := '/') (by decide +kernel)
    have hhyphen := digit_apart (hw c hc) (d := '-') (by decide +kernel)
    have hdot := digit_apart (hw c hc) (d := '.') (by decide +kernel)
    simp [hslash, hhyphen, hdot]
  have hmark : ∀ {c : Char}, c ∈ ['/', '-', '.'] →
      (decide (c = '/') || decide (c = '-') || decide (c = '.')) = true := by
    intro c hc
    simpa [or_assoc] using hc
  unfold numericDate
  rw [split_three (hpiece (digit_run_all hday.1)) (hpiece (digit_run_all hmonth.1))
    (hpiece (digits_are_digits 4 d.year)) (hmark hsep) (hmark hsep')]
  dsimp only
  rw [hday.1, hmonth.1, digit_run_digits, hday.2, hmonth.2]
  have hlt := (IsoDate.month_days_bounds d.year d.month).2
  rw [if_pos (show (true && true && true) = true from rfl), if_pos ⟨d.dayPos, d.dayLe.trans hlt, d.monthPos, d.monthLe⟩, iso_text_eq]

theorem iso_shaped_text (d : Date) : isoShaped d.text.toList = true := by
  have hpiece : ∀ width n, ∀ c ∈ digits width n, decide (c = '-') = false := by
    intro width n c hc
    simpa using digit_apart (digits_are_digits width n c hc) (d := '-') (by decide +kernel)
  unfold isoShaped
  rw [Date.text, String.toList_ofList,
    split_three (hpiece _ _) (hpiece _ _) (hpiece _ _) (by decide) (by decide)]
  dsimp only
  rw [digit_run_digits, digit_run_digits, digit_run_digits]
  rfl

/-- The year stands first in ISO form, where figures have a day. -/
theorem numeric_date_iso (d : Date) : numericDate d.text.toList = none := by
  have hpiece : ∀ width n, ∀ c ∈ digits width n,
      (decide (c = '/') || decide (c = '-') || decide (c = '.')) = false := by
    intro width n c hc
    have hdigit := digits_are_digits width n c hc
    have hslash := digit_apart hdigit (d := '/') (by decide +kernel)
    have hhyphen := digit_apart hdigit (d := '-') (by decide +kernel)
    have hdot := digit_apart hdigit (d := '.') (by decide +kernel)
    simp [hslash, hhyphen, hdot]
  unfold numericDate
  rw [Date.text, String.toList_ofList,
    split_three (hpiece _ _) (hpiece _ _) (hpiece _ _) (by decide) (by decide)]
  dsimp only
  have hlong : digitRun 1 2 (digits 4 d.year) = false := by
    unfold digitRun
    rw [IsoDate.digits_length]
    rfl
  rw [hlong]
  rfl

theorem month_name_index {i : ℕ} {name : List Char} (h : monthNames[i]? = some name) :
    monthNames.findIdx? (· = name) = some i := by
  have htable : ∀ i : Fin 12, monthNames.findIdx? (· = monthNames[i]) = some i.val := by decide
  obtain ⟨hlt, hname⟩ := List.getElem?_eq_some_iff.mp h
  have hfound := htable ⟨i, hlt⟩
  rw [show monthNames[(⟨i, hlt⟩ : Fin 12)] = name from hname] at hfound
  exact hfound

theorem month_name_length {i : ℕ} {month : List Char} (h : monthNames[i]? = some (lower month)) :
    month.length = 3 := by
  have htable : ∀ name ∈ monthNames, name.length = 3 := by decide
  have hlength := htable _ (List.mem_of_getElem? h)
  unfold lower at hlength
  rwa [List.length_map] at hlength

theorem alpha_not_digit {c : Char} (h : c.isAlpha = true) : isDigit c = false := by
  have hsmall : ∀ n < 128, (Char.ofNat n).isAlpha = true → isDigit (Char.ofNat n) = false := by
    decide +kernel
  have hlt : c.toNat < 128 := by
    simp only [Char.isAlpha, Char.isUpper, Char.isLower, Bool.or_eq_true, Bool.and_eq_true,
      decide_eq_true_eq] at h
    have hval : c.toNat = c.val.toNat := rfl
    rcases h with ⟨-, hle⟩ | ⟨-, hle⟩
    · have := UInt32.le_iff_toNat_le.mp hle
      simp at this
      omega
    · have := UInt32.le_iff_toNat_le.mp hle
      simp at this
      omega
  have hc : Char.ofNat c.toNat = c := Char.ofNat_toNat c
  have hread := hsmall c.toNat hlt
  rw [hc] at hread
  exact hread h

theorem named_date_read {d : Date} {day month : List Char} {sep sep' : Char}
    (hday : digitRun 1 2 day = true ∧ number day = d.day)
    (hmonth : monthNames[d.month - 1]? = some (lower month))
    (hletters : month.all Char.isAlpha = true) (hsep : sep ∈ [' ', '-']) (hsep' : sep' ∈ [' ', '-']) :
    namedDate (day ++ sep :: (month ++ sep' :: digits 4 d.year)) = some d.text.toList := by
  have hpiece : ∀ {w : List Char}, (∀ c ∈ w, isDigit c = true) →
      ∀ c ∈ w, (decide (c = ' ') || decide (c = '-')) = false := by
    intro w hw c hc
    have hspace := digit_apart (hw c hc) (d := ' ') (by decide +kernel)
    have hhyphen := digit_apart (hw c hc) (d := '-') (by decide +kernel)
    simp [hspace, hhyphen]
  have hname : ∀ c ∈ month, (decide (c = ' ') || decide (c = '-')) = false := by
    intro c hc
    have halpha := List.all_eq_true.mp hletters c hc
    have hspace : c ≠ ' ' := by
      rintro rfl
      exact absurd halpha (by decide)
    have hhyphen : c ≠ '-' := by
      rintro rfl
      exact absurd halpha (by decide)
    simp [hspace, hhyphen]
  have hmark : ∀ {c : Char}, c ∈ [' ', '-'] → (decide (c = ' ') || decide (c = '-')) = true := by
    intro c hc
    simpa using hc
  unfold namedDate
  rw [split_three (hpiece (digit_run_all hday.1)) hname (hpiece (digits_are_digits 4 d.year))
    (hmark hsep) (hmark hsep')]
  dsimp only
  rw [hday.1, month_name_length hmonth, hletters, digit_run_digits, month_name_index hmonth, hday.2]
  rw [if_pos (by decide), Option.map_some, Nat.sub_add_cancel d.monthPos, iso_text_eq]

/-- A cell that spells a day is read as that day. -/
theorem to_iso_date_spelled {s : String} {d : Date} (h : Spelled (strip s).toList d) :
    toIsoDate (some s) = some d.text := by
  have hne : (strip s).toList ≠ [] := by
    generalize (strip s).toList = cs at h
    cases h with
    | numeric => simp
    | iso => simp [Date.text]
    | named => simp
  unfold toIsoDate
  dsimp only
  rw [if_neg hne]
  generalize (strip s).toList = cs at h
  cases h with
  | numeric _ day month sep sep' hday hmonth hsep hsep' =>
    rw [numeric_date_read hday hmonth hsep hsep']
    dsimp only
    rw [String.ofList_toList]
  | iso =>
    rw [numeric_date_iso]
    dsimp only
    rw [if_pos (iso_shaped_text d), String.ofList_toList]
  | named _ day month sep sep' hday hmonth hletters hsep hsep' =>
    obtain ⟨c, hc⟩ : ∃ c, c ∈ month := by
      have hlength := month_name_length hmonth
      exact ⟨month[0], List.getElem_mem _⟩
    have halpha := List.all_eq_true.mp hletters c hc
    have hmem : c ∈ day ++ sep :: (month ++ sep' :: digits 4 d.year) := by simp [hc]
    have hmark : ∀ x : Char, x.isAlpha = false → c ≠ x := by
      rintro x hx rfl
      rw [hx] at halpha
      cases halpha
    have hnumeric : numericDate (day ++ sep :: (month ++ sep' :: digits 4 d.year)) = none := by
      cases hread : numericDate (day ++ sep :: (month ++ sep' :: digits 4 d.year)) with
      | none => rfl
      | some iso =>
        rcases numeric_date_digits hread hmem with hdigit | hslash | hhyphen | hdot
        · rw [alpha_not_digit halpha] at hdigit
          cases hdigit
        · exact absurd hslash (hmark '/' (by decide))
        · exact absurd hhyphen (hmark '-' (by decide))
        · exact absurd hdot (hmark '.' (by decide))
    have hshape : isoShaped (day ++ sep :: (month ++ sep' :: digits 4 d.year)) = false := by
      cases hread : isoShaped (day ++ sep :: (month ++ sep' :: digits 4 d.year)) with
      | false => rfl
      | true =>
        rcases iso_shaped_digits hread hmem with hdigit | hhyphen
        · rw [alpha_not_digit halpha] at hdigit
          cases hdigit
        · exact absurd hhyphen (hmark '-' (by decide))
    rw [hnumeric, hshape, named_date_read hday hmonth hletters hsep hsep']
    dsimp only
    rw [if_neg (by decide), Option.map_some, String.ofList_toList]

/-! ### Amounts -/

/-- A numeral without a sign: digits with at most one point, and a power of ten if there is one. -/
inductive Written : List Char → ℕ → ℤ → Prop where
  | mk (whole point fraction scale : List Char) (shift : ℤ) (hne : whole ++ fraction ≠ [])
      (hfigures : ∀ c ∈ whole ++ fraction, isDigit c = true)
      (hpoint : point = ['.'] ∨ point = [] ∧ fraction = [])
      (hscale : scale = [] ∧ shift = 0 ∨
        ∃ e tail, (e = 'e' ∨ e = 'E') ∧ scale = e :: tail ∧ readExponent tail = some shift) :
      Written (whole ++ point ++ fraction ++ scale) (number (whole ++ fraction))
        (shift - fraction.length)

/-- The figure in a money cell: what is left within its currency mark, commas, blanks, parentheses,
its Dr or Cr, its underscores and its sign. -/
inductive Bare (s : String) (body : List Char) : Prop where
  | mk (opening numeral closing mark sign : List Char)
      (htext : cleaned s = opening ++ numeral ++ closing ++ mark)
      (hopening : ∀ c ∈ opening, isParen c = true) (hclosing : ∀ c ∈ closing, isParen c = true)
      (hmark : mark = [] ∨ lower mark = "dr".toList ∨ lower mark = "cr".toList)
      (hsign : sign = [] ∨ sign = ['+'] ∨ sign = ['-'])
      (hnumeral : numeral.filter (· ≠ '_') = sign ++ body)

/-- The cell writes a coefficient times a power of ten, whatever its sign. -/
def Denotes (s : String) (coefficient : ℕ) (exponent : ℤ) : Prop :=
  ∃ body, Bare s body ∧ Written body coefficient exponent

def NanText (s : String) : Prop := ∃ body, Bare s body ∧ isNan body = true

theorem lower_r {c : Char} (h : c.toLower = 'r') : c = 'r' ∨ c = 'R' := by
  unfold Char.toLower at h
  split at h
  · right
    have hval := congrArg Char.val h
    apply Char.ext
    simp only at hval
    have hsum : c.val + 32 = 82 + 32 := hval
    exact (UInt32.add_left_inj 32).mp hsum
  · exact Or.inl h

/-- The characters a numeral is made of. -/
def figure (c : Char) : Prop := isDigit c = true ∨ c ∈ ['.', 'e', 'E', '+', '-', '_']

theorem figure_plain {c : Char} (h : figure c) : isParen c = false ∧ c.toLower ≠ 'r' := by
  rcases h with hdigit | hmark
  · constructor
    · have hopen := digit_apart hdigit (d := '(') (by decide +kernel)
      have hclose := digit_apart hdigit (d := ')') (by decide +kernel)
      simp [isParen, hopen, hclose]
    · intro hr
      rcases lower_r hr with rfl | rfl
      · exact absurd hdigit (by decide +kernel)
      · exact absurd hdigit (by decide +kernel)
  · have htable : ∀ d ∈ ['.', 'e', 'E', '+', '-', '_'], isParen d = false ∧ d.toLower ≠ 'r' := by
      intro d hd
      simp only [List.mem_cons, List.not_mem_nil, or_false] at hd
      rcases hd with rfl | rfl | rfl | rfl | rfl | rfl
      all_goals exact ⟨by decide, by decide⟩
    exact htable c hmark

theorem split_sign_text (cs : List Char) :
    ∃ sign, (sign = [] ∨ sign = ['+'] ∨ sign = ['-']) ∧ cs = sign ++ (splitSign cs).2 := by
  unfold splitSign
  split
  · exact ⟨['+'], Or.inr (Or.inl rfl), rfl⟩
  · exact ⟨['-'], Or.inr (Or.inr rfl), rfl⟩
  · exact ⟨[], Or.inl rfl, rfl⟩

theorem split_sign_body {sign body : List Char}
    (hsign : sign = [] ∨ sign = ['+'] ∨ sign = ['-'])
    (hbody : ∀ c, body.head? = some c → c ≠ '+' ∧ c ≠ '-') : (splitSign (sign ++ body)).2 = body := by
  rcases hsign with rfl | rfl | rfl
  · unfold splitSign
    split
    · rename_i rest heq
      rw [List.nil_append] at heq
      exact absurd rfl (hbody '+' (by rw [heq]; rfl)).1
    · rename_i rest heq
      rw [List.nil_append] at heq
      exact absurd rfl (hbody '-' (by rw [heq]; rfl)).2
    · rfl
  · rfl
  · rfl

theorem exponent_figures {cs : List Char} {shift : ℤ} (h : readExponent cs = some shift) :
    ∀ c ∈ cs, isDigit c = true ∨ c = '+' ∨ c = '-' := by
  obtain ⟨sign, hsign, htext⟩ := split_sign_text cs
  have hdigits : ∀ c ∈ (splitSign cs).2, isDigit c = true := by
    unfold readExponent at h
    dsimp only at h
    split at h
    · rename_i hread
      exact List.all_eq_true.mp hread.2
    · cases h
  intro c hc
  rw [htext] at hc
  rcases List.mem_append.mp hc with hs | hb
  · rcases hsign with rfl | rfl | rfl
    · cases hs
    · exact Or.inr (Or.inl (List.mem_singleton.mp hs))
    · exact Or.inr (Or.inr (List.mem_singleton.mp hs))
  · exact Or.inl (hdigits c hb)

theorem Written.figures {body : List Char} {coefficient : ℕ} {exponent : ℤ}
    (h : Written body coefficient exponent) : ∀ c ∈ body, figure c := by
  obtain ⟨whole, point, fraction, scale, shift, hne, hfigures, hpoint, hscale⟩ := h
  intro c hc
  simp only [List.mem_append] at hc hfigures
  rcases hc with ((hc | hc) | hc) | hc
  · exact Or.inl (hfigures c (Or.inl hc))
  · rcases hpoint with rfl | ⟨rfl, -⟩
    · exact Or.inr (by simp [List.mem_singleton.mp hc])
    · cases hc
  · exact Or.inl (hfigures c (Or.inr hc))
  · rcases hscale with ⟨rfl, -⟩ | ⟨e, tail, he, rfl, hshift⟩
    · cases hc
    · rcases List.mem_cons.mp hc with rfl | htail
      · rcases he with rfl | rfl
        · exact Or.inr (by simp)
        · exact Or.inr (by simp)
      · rcases exponent_figures hshift c htail with hdigit | rfl | rfl
        · exact Or.inl hdigit
        · exact Or.inr (by simp)
        · exact Or.inr (by simp)

/-- A numeral begins with a digit or its point. -/
theorem Written.head {body : List Char} {coefficient : ℕ} {exponent : ℤ}
    (h : Written body coefficient exponent) :
    ∃ c rest, body = c :: rest ∧ (isDigit c = true ∨ c = '.') := by
  obtain ⟨whole, point, fraction, scale, shift, hne, hfigures, hpoint, hscale⟩ := h
  cases whole with
  | cons c whole => exact ⟨c, _, rfl, Or.inl (hfigures c List.mem_cons_self)⟩
  | nil =>
    rcases hpoint with rfl | ⟨rfl, rfl⟩
    · exact ⟨'.', _, rfl, Or.inr rfl⟩
    · exact absurd rfl hne

theorem read_mantissa_written {whole point fraction : List Char} (hne : whole ++ fraction ≠ [])
    (hfigures : ∀ c ∈ whole ++ fraction, isDigit c = true)
    (hpoint : point = ['.'] ∨ point = [] ∧ fraction = []) :
    readMantissa (whole ++ point ++ fraction) = some (number (whole ++ fraction), fraction.length) := by
  have hpiece : ∀ c ∈ whole ++ fraction, decide (c = '.') = false := by
    intro c hc
    simpa using digit_apart (hfigures c hc) (d := '.') (by decide +kernel)
  unfold readMantissa
  rcases hpoint with rfl | ⟨rfl, rfl⟩
  · rw [List.append_assoc, List.singleton_append,
      List.splitOnP_append_cons_of_forall_mem (fun c hc => hpiece c (List.mem_append_left _ hc)) '.'
        (by decide),
      List.splitOnP_eq_singleton fun c hc => hpiece c (List.mem_append_right _ hc)]
    dsimp only
    rw [if_pos ⟨hne, List.all_eq_true.mpr hfigures⟩]
  · simp only [List.append_nil] at hne hfigures hpiece ⊢
    rw [List.splitOnP_eq_singleton hpiece]
    dsimp only
    rw [if_pos ⟨hne, List.all_eq_true.mpr hfigures⟩]
    rfl

theorem read_finite_written {body : List Char} {coefficient : ℕ} {exponent : ℤ}
    (h : Written body coefficient exponent) (negative : Bool) :
    readFinite negative body =
      if coefficient ≠ 0 ∧ maxEmax < exponent + numDigits coefficient - 1 then none
      else some (.finite negative coefficient exponent) := by
  obtain ⟨whole, point, fraction, scale, shift, hne, hfigures, hpoint, hscale⟩ := h
  have hbase : ∀ c ∈ whole ++ point ++ fraction, (decide (c = 'e') || decide (c = 'E')) = false := by
    intro c hc
    have hcases : isDigit c = true ∨ c = '.' := by
      simp only [List.mem_append] at hc hfigures
      rcases hc with (hc | hc) | hc
      · exact Or.inl (hfigures c (Or.inl hc))
      · rcases hpoint with rfl | ⟨rfl, -⟩
        · exact Or.inr (List.mem_singleton.mp hc)
        · cases hc
      · exact Or.inl (hfigures c (Or.inr hc))
    rcases hcases with hdigit | rfl
    · have hlow := digit_apart hdigit (d := 'e') (by decide +kernel)
      have hhigh := digit_apart hdigit (d := 'E') (by decide +kernel)
      simp [hlow, hhigh]
    · decide
  have hsplit : splitScale (whole ++ point ++ fraction ++ scale) =
      some (whole ++ point ++ fraction, some shift) := by
    unfold splitScale
    rcases hscale with ⟨rfl, rfl⟩ | ⟨e, tail, he, rfl, hshift⟩
    · rw [List.append_nil, List.splitOnP_eq_singleton hbase]
    · have htail : ∀ c ∈ tail, (decide (c = 'e') || decide (c = 'E')) = false := by
        intro c hc
        rcases exponent_figures hshift c hc with hdigit | rfl | rfl
        · have hlow := digit_apart hdigit (d := 'e') (by decide +kernel)
          have hhigh := digit_apart hdigit (d := 'E') (by decide +kernel)
          simp [hlow, hhigh]
        · decide
        · decide
      have hmark : (decide (e = 'e') || decide (e = 'E')) = true := by
        rcases he with rfl | rfl
        · decide
        · decide
      rw [List.splitOnP_append_cons_of_forall_mem hbase e hmark, List.splitOnP_eq_singleton htail]
      dsimp only
      rw [hshift]
  unfold readFinite
  rw [hsplit]
  dsimp only
  rw [read_mantissa_written hne hfigures hpoint]

/-- The first piece of a text, and what is left after the mark that ends it. -/
theorem first_piece {p : Char → Bool} {cs first : List Char} {rest : List (List Char)}
    (h : cs.splitOnP p = first :: rest) : (rest = [] ∧ cs = first) ∨
      ∃ sep tail, p sep = true ∧ cs = first ++ sep :: tail ∧ tail.splitOnP p = rest := by
  induction cs generalizing first with
  | nil =>
    rw [List.splitOnP_nil] at h
    cases h
    exact Or.inl ⟨rfl, rfl⟩
  | cons c cs ih =>
    rw [List.splitOnP_cons_eq_if_modifyHead] at h
    split at h
    · rename_i hc
      cases h
      exact Or.inr ⟨c, cs, hc, rfl, rfl⟩
    · obtain ⟨first', rest', hsplit⟩ := List.exists_cons_of_ne_nil (List.splitOnP_ne_nil p cs)
      rw [hsplit, List.modifyHead_cons] at h
      cases h
      rcases ih hsplit with ⟨hrest, htext⟩ | ⟨sep, tail, hsep, htext, htail⟩
      · exact Or.inl ⟨hrest, by rw [htext]⟩
      · exact Or.inr ⟨sep, tail, hsep, by rw [htext]; rfl, htail⟩

theorem one_piece {p : Char → Bool} {cs first : List Char} (h : cs.splitOnP p = [first]) :
    cs = first := by
  rcases first_piece h with ⟨-, htext⟩ | ⟨sep, tail, -, -, htail⟩
  · exact htext
  · exact absurd htail (List.splitOnP_ne_nil p tail)

theorem two_pieces {p : Char → Bool} {cs first second : List Char}
    (h : cs.splitOnP p = [first, second]) : ∃ sep, p sep = true ∧ cs = first ++ sep :: second := by
  rcases first_piece h with ⟨hrest, -⟩ | ⟨sep, tail, hsep, htext, htail⟩
  · cases hrest
  · exact ⟨sep, hsep, one_piece htail ▸ htext⟩

theorem read_mantissa_text {cs : List Char} {coefficient places : ℕ}
    (h : readMantissa cs = some (coefficient, places)) :
    ∃ whole point fraction, cs = whole ++ point ++ fraction ∧ whole ++ fraction ≠ [] ∧
      (∀ c ∈ whole ++ fraction, isDigit c = true) ∧ (point = ['.'] ∨ point = [] ∧ fraction = []) ∧
      coefficient = number (whole ++ fraction) ∧ places = fraction.length := by
  unfold readMantissa at h
  split at h
  · rename_i whole hsplit
    split at h
    · rename_i hread
      cases h
      exact ⟨whole, [], [], by simpa using one_piece hsplit, by simpa using hread.1,
        by simpa using hread.2, Or.inr ⟨rfl, rfl⟩, by rw [List.append_nil], rfl⟩
    · cases h
  · rename_i whole fraction hsplit
    split at h
    · rename_i hread
      cases h
      obtain ⟨sep, hsep, htext⟩ := two_pieces hsplit
      rw [decide_eq_true_eq] at hsep
      subst hsep
      exact ⟨whole, ['.'], fraction, by simpa using htext, hread.1, List.all_eq_true.mp hread.2,
        Or.inl rfl, rfl, rfl⟩
    · cases h
  · cases h

theorem read_finite_text {cs : List Char} {negative negative' : Bool} {coefficient : ℕ}
    {exponent : ℤ} (h : readFinite negative cs = some (.finite negative' coefficient exponent)) :
    Written cs coefficient exponent := by
  unfold readFinite at h
  split at h
  swap
  · cases h
  rename_i mantissa shift hscale
  split at h
  swap
  · cases h
  rename_i figures places hmantissa
  split at h
  · cases h
  cases h
  obtain ⟨whole, point, fraction, htext, hne, hfigures, hpoint, rfl, rfl⟩ :=
    read_mantissa_text hmantissa
  unfold splitScale at hscale
  split at hscale
  · rename_i only hsplit
    cases hscale
    have hwritten := Written.mk whole point fraction [] 0 hne hfigures hpoint (Or.inl ⟨rfl, rfl⟩)
    rwa [List.append_nil, ← htext, ← one_piece hsplit] at hwritten
  · rename_i before after hsplit
    simp only [Option.some.injEq, Prod.mk.injEq] at hscale
    obtain ⟨rfl, hshift⟩ := hscale
    obtain ⟨sep, hsep, hcs⟩ := two_pieces hsplit
    simp only [Bool.or_eq_true, decide_eq_true_eq] at hsep
    have hwritten := Written.mk whole point fraction (sep :: after) shift hne hfigures hpoint
      (Or.inr ⟨sep, after, hsep, rfl, hshift⟩)
    rwa [← htext, ← hcs] at hwritten
  · cases hscale

theorem digit_lower {c : Char} (h : isDigit c = true ∨ c = '.') : c.toLower = c := by
  unfold Char.toLower
  split
  · rename_i hupper
    have halpha : c.isAlpha = true := by
      simp only [Char.isAlpha, Char.isUpper, Bool.or_eq_true, decide_eq_true_eq]
      exact Or.inl hupper
    rcases h with hdigit | rfl
    · rw [alpha_not_digit halpha] at hdigit
      cases hdigit
    · exact absurd halpha (by decide)
  · rfl

/-- A numeral is neither infinity nor not a number: these begin with a letter. -/
theorem Written.finite {body : List Char} {coefficient : ℕ} {exponent : ℤ}
    (h : Written body coefficient exponent) :
    ¬ (lower body = "inf".toList ∨ lower body = "infinity".toList) ∧ isNan body = false := by
  obtain ⟨c, rest, rfl, hc⟩ := h.head
  have hletter : ∀ {d : Char} {tail : List Char}, isDigit d = false → d ≠ '.' →
      lower (c :: rest) ≠ d :: tail := by
    intro d tail hd hdot heq
    have hsame : c.toLower = d := (List.cons.inj heq).1
    rw [digit_lower hc] at hsame
    rcases hc with hdigit | hpoint
    · exact digit_apart hdigit hd hsame
    · exact hdot (hsame.symm.trans hpoint)
  constructor
  · rintro (hinf | hinfinity)
    · exact hletter (by decide +kernel) (by decide) hinf
    · exact hletter (by decide +kernel) (by decide) hinfinity
  · unfold isNan
    split
    · rename_i heq
      exact absurd heq (hletter (by decide +kernel) (by decide))
    · rename_i heq
      exact absurd heq (hletter (by decide +kernel) (by decide))
    · rfl

theorem read_body_written {body : List Char} {coefficient : ℕ} {exponent : ℤ}
    (h : Written body coefficient exponent) (negative : Bool) :
    readBody negative body =
      if coefficient ≠ 0 ∧ maxEmax < exponent + numDigits coefficient - 1 then none
      else some (.finite negative coefficient exponent) := by
  unfold readBody
  rw [if_neg h.finite.1, h.finite.2]
  exact read_finite_written h negative

theorem read_decimal_text {numeral : List Char} {read : DecimalRead}
    (h : readDecimal numeral = some read) : ∃ sign body, (sign = [] ∨ sign = ['+'] ∨ sign = ['-']) ∧
      numeral.filter (· ≠ '_') = sign ++ body ∧
      (read = .nan → isNan body = true) ∧
      ∀ negative coefficient exponent, read = .finite negative coefficient exponent →
        Written body coefficient exponent := by
  obtain ⟨sign, hsign, htext⟩ := split_sign_text (numeral.filter (· ≠ '_'))
  refine ⟨sign, _, hsign, htext, ?_, ?_⟩
  · rintro rfl
    unfold readDecimal readBody at h
    dsimp only at h
    split at h
    · cases h
    · split at h
      · assumption
      · unfold readFinite at h
        split at h
        · split at h
          · split at h
            · cases h
            · cases h
          · cases h
        · cases h
  · rintro negative coefficient exponent rfl
    unfold readDecimal readBody at h
    dsimp only at h
    split at h
    · cases h
    · split at h
      · cases h
      · exact read_finite_text h

/-! ### The marker and the parentheses -/

theorem split_marker_text (cs : List Char) : ∃ mark, cs = (splitMarker cs).2 ++ mark ∧
    (mark = [] ∨ lower mark = "dr".toList ∨ lower mark = "cr".toList) := by
  unfold splitMarker
  dsimp only
  split
  · rename_i hdr
    exact ⟨cs.drop (cs.length - 2), (List.take_append_drop _ cs).symm, Or.inr (Or.inl hdr)⟩
  · split
    · rename_i hcr
      exact ⟨cs.drop (cs.length - 2), (List.take_append_drop _ cs).symm, Or.inr (Or.inr hcr)⟩
    · exact ⟨[], (List.append_nil cs).symm, Or.inl rfl⟩

theorem split_marker_none {front : List Char}
    (hlast : ∀ c, front.getLast? = some c → c.toLower ≠ 'r') : (splitMarker front).2 = front := by
  have hends : ∀ d, lower (front.drop (front.length - 2)) ≠ [d, 'r'] := by
    intro d heq
    have hmap : (lower (front.drop (front.length - 2))).getLast? = some 'r' := by rw [heq]; rfl
    unfold lower at hmap
    rw [List.getLast?_map, List.getLast?_drop] at hmap
    split at hmap
    · cases hmap
    · obtain ⟨c, hc, hr⟩ := Option.map_eq_some_iff.mp hmap
      exact hlast c hc hr
  unfold splitMarker
  dsimp only
  rw [if_neg (show lower (front.drop (front.length - 2)) ≠ "dr".toList from hends 'd'),
    if_neg (show lower (front.drop (front.length - 2)) ≠ "cr".toList from hends 'c')]

theorem split_marker_some {front mark : List Char}
    (hmark : lower mark = "dr".toList ∨ lower mark = "cr".toList) :
    (splitMarker (front ++ mark)).2 = front := by
  have hlength : mark.length = 2 := by
    have hlower : (lower mark).length = 2 := by
      rcases hmark with h | h
      · rw [h]; rfl
      · rw [h]; rfl
    unfold lower at hlower
    rwa [List.length_map] at hlower
  have hcut : (front ++ mark).length - 2 = front.length := by
    rw [List.length_append]
    omega
  unfold splitMarker
  dsimp only
  rw [hcut, List.drop_left, List.take_left]
  rcases hmark with h | h
  · rw [if_pos h]
  · rw [if_neg, if_pos h]
    rw [h]
    decide

theorem strip_parens_text (cs : List Char) : ∃ opening closing, cs = opening ++ stripParens cs ++ closing ∧
    (∀ c ∈ opening, isParen c = true) ∧ ∀ c ∈ closing, isParen c = true := by
  refine ⟨cs.takeWhile isParen, (cs.dropWhile isParen).rtakeWhile isParen, ?_, ?_, ?_⟩
  · unfold stripParens
    rw [List.append_assoc, List.rdropWhile_append_rtakeWhile, List.takeWhile_append_dropWhile]
  · exact fun c hc => List.mem_takeWhile_imp hc
  · exact fun c hc => List.mem_rtakeWhile_imp hc

theorem strip_parens_numeral {opening numeral closing : List Char}
    (hopening : ∀ c ∈ opening, isParen c = true) (hclosing : ∀ c ∈ closing, isParen c = true)
    (hne : numeral ≠ []) (hnumeral : ∀ c ∈ numeral, isParen c = false) :
    stripParens (opening ++ numeral ++ closing) = numeral := by
  unfold stripParens
  have hfront : (opening ++ numeral ++ closing).dropWhile isParen = numeral ++ closing := by
    rw [List.append_assoc, List.dropWhile_append_of_pos hopening]
    obtain ⟨c, rest, rfl⟩ := List.exists_cons_of_ne_nil hne
    exact List.dropWhile_cons_of_neg (by simp [hnumeral c List.mem_cons_self])
  rw [hfront, List.rdropWhile, List.reverse_append,
    List.dropWhile_append_of_pos fun c hc => hclosing c (List.mem_reverse.mp hc)]
  have hback : numeral.reverse.dropWhile isParen = numeral.reverse := by
    rw [List.dropWhile_eq_self_iff]
    intro hpos
    have hmem : numeral.reverse[0] ∈ numeral := List.mem_reverse.mp (List.getElem_mem hpos)
    exact Bool.eq_false_iff.mp (hnumeral _ hmem)
  rw [hback, List.reverse_reverse]

/-! ### The amount of a cell -/

theorem quantized_nonneg (d : ℕ × ℤ) : 0 ≤ quantized d := by
  have hvalue : 0 ≤ 100 * decimalValue d := by
    unfold decimalValue
    positivity
  unfold quantized
  dsimp only
  split
  · exact le_rfl
  · exact Rounding.half_up_nonneg hvalue

/-- A cell is read as what it holds between its marks, where that has no mark in it. -/
theorem Bare.read {s : String} {first : Char} {rest : List Char} (h : Bare s (first :: rest))
    (hplain : ∀ c ∈ first :: rest, isParen c = false ∧ c.toLower ≠ 'r')
    (hfirst : first ≠ '+' ∧ first ≠ '-') :
    ¬ ((strip s).toList = [] ∨ (strip s).toList = ['-']) ∧
      ∃ negative, readDecimal (stripParens (splitMarker (cleaned s)).2) =
        readBody negative (first :: rest) := by
  obtain ⟨opening, numeral, closing, mark, sign, htext, hopening, hclosing, hmark, hsign,
    hnumeral⟩ := h
  have hclear : ∀ c ∈ numeral, isParen c = false ∧ c.toLower ≠ 'r' := by
    intro c hc
    by_cases hunder : c = '_'
    · exact figure_plain (Or.inr (by simp [hunder]))
    · have hmem : c ∈ sign ++ first :: rest := by
        rw [← hnumeral]
        exact List.mem_filter.mpr ⟨hc, by simpa using hunder⟩
      rcases List.mem_append.mp hmem with hs | hb
      · rcases hsign with rfl | rfl | rfl
        · cases hs
        · exact figure_plain (Or.inr (by simp [List.mem_singleton.mp hs]))
        · exact figure_plain (Or.inr (by simp [List.mem_singleton.mp hs]))
      · exact hplain c hb
  have hmem : first ∈ numeral := by
    have hfilter : first ∈ numeral.filter (· ≠ '_') := by
      rw [hnumeral]
      exact List.mem_append_right _ List.mem_cons_self
    exact List.mem_of_mem_filter hfilter
  constructor
  · have hcell : first ∈ (strip s).toList := by
      have hclean : first ∈ cleaned s := by
        rw [htext]
        simp [hmem]
      exact List.mem_of_mem_filter hclean
    rintro (hempty | hdash)
    · rw [hempty] at hcell
      cases hcell
    · rw [hdash] at hcell
      exact hfirst.2 (List.mem_singleton.mp hcell)
  · have hmarker : (splitMarker (cleaned s)).2 = opening ++ numeral ++ closing := by
      rw [htext]
      rcases hmark with rfl | hmark
      · rw [List.append_nil]
        apply split_marker_none
        intro c hc
        have hlast := List.mem_of_getLast? hc
        simp only [List.mem_append] at hlast
        have hparen : isParen c = true → c.toLower ≠ 'r' := by
          intro hp
          simp only [isParen, Bool.or_eq_true, decide_eq_true_eq] at hp
          rcases hp with rfl | rfl
          · decide
          · decide
        rcases hlast with (ho | hn) | hcl
        · exact hparen (hopening c ho)
        · exact (hclear c hn).2
        · exact hparen (hclosing c hcl)
      · exact split_marker_some hmark
    rw [hmarker, strip_parens_numeral hopening hclosing (List.ne_nil_of_mem hmem)
      fun c hc => (hclear c hc).1]
    unfold readDecimal
    rw [hnumeral]
    dsimp only
    rw [split_sign_body hsign fun c hc => ?_]
    · exact ⟨_, rfl⟩
    · cases hc
      exact hfirst

theorem Denotes.read {s : String} {coefficient : ℕ} {exponent : ℤ}
    (h : Denotes s coefficient exponent) :
    ¬ ((strip s).toList = [] ∨ (strip s).toList = ['-']) ∧
      ∃ negative, readDecimal (stripParens (splitMarker (cleaned s)).2) =
        if coefficient ≠ 0 ∧ maxEmax < exponent + numDigits coefficient - 1 then none
        else some (.finite negative coefficient exponent) := by
  obtain ⟨body, hbare, hwritten⟩ := h
  obtain ⟨first, rest, rfl, hfirst⟩ := hwritten.head
  have hsign : first ≠ '+' ∧ first ≠ '-' := by
    rcases hfirst with hdigit | rfl
    · exact ⟨digit_apart hdigit (by decide +kernel), digit_apart hdigit (by decide +kernel)⟩
    · exact ⟨by decide, by decide⟩
  obtain ⟨hcell, negative, hread⟩ :=
    hbare.read (fun c hc => figure_plain (hwritten.figures c hc)) hsign
  refine ⟨hcell, negative, ?_⟩
  rw [hread]
  exact read_body_written hwritten negative

/-- The letters of not a number. -/
theorem nan_letters {body : List Char} (h : isNan body = true) :
    ∃ first rest, body = first :: rest ∧ (first.toLower = 's' ∨ first.toLower = 'n') ∧
      ∀ c ∈ body, isParen c = false ∧ c.toLower ≠ 'r' := by
  have hletter : ∀ {c d : Char}, c.toLower = d → d ∈ ['s', 'n', 'a'] →
      isParen c = false ∧ c.toLower ≠ 'r' := by
    intro c d hd hmem
    refine ⟨?_, ?_⟩
    · rw [Bool.eq_false_iff]
      intro hparen
      simp only [isParen, Bool.or_eq_true, decide_eq_true_eq] at hparen
      rcases hparen with rfl | rfl
      · exact absurd (hd ▸ hmem) (by decide)
      · exact absurd (hd ▸ hmem) (by decide)
    · rw [hd]
      rintro rfl
      exact absurd hmem (by decide)
  unfold isNan at h
  split at h
  · rename_i heq
    obtain ⟨c₁, r₁, rfl, h₁, heq₁⟩ := List.map_eq_cons_iff.mp heq
    obtain ⟨c₂, r₂, rfl, h₂, heq₂⟩ := List.map_eq_cons_iff.mp heq₁
    obtain ⟨c₃, r₃, rfl, h₃, heq₃⟩ := List.map_eq_cons_iff.mp heq₂
    obtain ⟨c₄, r₄, rfl, h₄, -⟩ := List.map_eq_cons_iff.mp heq₃
    refine ⟨c₁, _, rfl, Or.inl h₁, fun c hc => ?_⟩
    simp only [List.mem_cons] at hc
    rcases hc with rfl | rfl | rfl | rfl | hrest
    · exact hletter h₁ (by decide)
    · exact hletter h₂ (by decide)
    · exact hletter h₃ (by decide)
    · exact hletter h₄ (by decide)
    · exact figure_plain (Or.inl (List.all_eq_true.mp h c hrest))
  · rename_i heq
    obtain ⟨c₁, r₁, rfl, h₁, heq₁⟩ := List.map_eq_cons_iff.mp heq
    obtain ⟨c₂, r₂, rfl, h₂, heq₂⟩ := List.map_eq_cons_iff.mp heq₁
    obtain ⟨c₃, r₃, rfl, h₃, -⟩ := List.map_eq_cons_iff.mp heq₂
    refine ⟨c₁, _, rfl, Or.inr h₁, fun c hc => ?_⟩
    simp only [List.mem_cons] at hc
    rcases hc with rfl | rfl | rfl | hrest
    · exact hletter h₁ (by decide)
    · exact hletter h₂ (by decide)
    · exact hletter h₃ (by decide)
    · exact figure_plain (Or.inl (List.all_eq_true.mp h c hrest))
  · cases h

theorem NanText.read {s : String} (h : NanText s) :
    ¬ ((strip s).toList = [] ∨ (strip s).toList = ['-']) ∧
      readDecimal (stripParens (splitMarker (cleaned s)).2) = some .nan := by
  obtain ⟨body, hbare, hnan⟩ := h
  obtain ⟨first, rest, rfl, hfirst, hplain⟩ := nan_letters hnan
  have hsign : first ≠ '+' ∧ first ≠ '-' := by
    constructor
    · rintro rfl
      exact absurd hfirst (by decide)
    · rintro rfl
      exact absurd hfirst (by decide)
  obtain ⟨hcell, negative, hread⟩ := hbare.read hplain hsign
  refine ⟨hcell, ?_⟩
  have hletter : ∀ tail, lower (first :: rest) ≠ 'i' :: tail := by
    intro tail heq
    have hsame : first.toLower = 'i' := (List.cons.inj heq).1
    rw [hsame] at hfirst
    exact absurd hfirst (by decide)
  rw [hread]
  unfold readBody
  rw [if_neg, if_pos hnan]
  rintro (hinf | hinfinity)
  · exact hletter _ hinf
  · exact hletter _ hinfinity

/-- What is read between a cell's marks is what the cell holds. -/
theorem read_bare {s : String} {read : DecimalRead}
    (h : readDecimal (stripParens (splitMarker (cleaned s)).2) = some read) :
    ∃ body, Bare s body ∧ (read = .nan → isNan body = true) ∧
      ∀ negative coefficient exponent, read = .finite negative coefficient exponent →
        Written body coefficient exponent := by
  obtain ⟨mark, hmarker, hmark⟩ := split_marker_text (cleaned s)
  obtain ⟨opening, closing, hparens, hopening, hclosing⟩ :=
    strip_parens_text (splitMarker (cleaned s)).2
  obtain ⟨sign, body, hsign, hnumeral, hnan, hfinite⟩ := read_decimal_text h
  refine ⟨body, ⟨opening, stripParens (splitMarker (cleaned s)).2, closing, mark, sign, ?_, hopening,
    hclosing, hmark, hsign, hnumeral⟩, hnan, hfinite⟩
  rw [← hparens]
  exact hmarker

theorem overflows_range {coefficient : ℕ} {exponent : ℤ}
    (h : overflows (significant coefficient exponent) = false) (hne : coefficient ≠ 0) :
    exponent + numDigits coefficient - 1 ≤ maxEmax := by
  have hdigits : 0 < numDigits coefficient :=
    List.length_pos_of_ne_nil (Nat.digits_ne_nil_iff_ne_zero.mpr hne)
  -- cutting the last digits of a figure leaves one with the others
  have hquotient : 10 ^ (numDigits coefficient - 1 - (numDigits coefficient - 28)) ≤
      coefficient / 10 ^ (numDigits coefficient - 28) := by
    rw [Nat.le_div_iff_mul_le (by positivity), ← pow_add]
    have hlow : 10 ^ (numDigits coefficient - 1) ≤ coefficient :=
      (Nat.lt_digits_length_iff (by decide) coefficient).mp (by unfold numDigits at *; omega)
    rwa [show numDigits coefficient - 1 - (numDigits coefficient - 28) +
      (numDigits coefficient - 28) = numDigits coefficient - 1 by omega]
  have hkept : coefficient / 10 ^ (numDigits coefficient - 28) ≤
      (significant coefficient exponent).1 := by
    unfold significant
    dsimp only
    split
    · exact Nat.le_succ _
    · exact le_rfl
  have hsome : (significant coefficient exponent).1 ≠ 0 := by
    have hpos : 0 < 10 ^ (numDigits coefficient - 1 - (numDigits coefficient - 28)) := by positivity
    omega
  have hlong : numDigits coefficient - 1 - (numDigits coefficient - 28) <
      numDigits (significant coefficient exponent).1 :=
    (Nat.lt_digits_length_iff (by decide) _).mpr (hquotient.trans hkept)
  have hscale : (significant coefficient exponent).2 =
      exponent + (numDigits coefficient - 28 : ℕ) := rfl
  unfold overflows at h
  rw [hscale] at h
  simp only [ne_eq, hsome, not_false_eq_true, decide_true, Bool.true_and, decide_eq_false_iff_not,
    not_lt] at h
  unfold maxEmax
  omega

theorem to_paise_denotes {s : String} {coefficient : ℕ} {exponent : ℤ}
    (h : Denotes s coefficient exponent)
    (hrange : overflows (significant coefficient exponent) = false) :
    ∃ paise, toPaise (some s) = .ok paise ∧
      |paise| = quantized (significant coefficient exponent) := by
  obtain ⟨hcell, negative, hread⟩ := h.read
  rw [if_neg fun hfar => absurd (overflows_range hrange hfar.1) (not_le.mpr hfar.2)] at hread
  have hnonneg := quantized_nonneg (significant coefficient exponent)
  unfold toPaise
  dsimp only
  rw [if_neg hcell, hread]
  dsimp only
  rw [if_neg (by simp [hrange])]
  have hsigned : ∀ negates : Bool, |if negates then -quantized (significant coefficient exponent)
      else quantized (significant coefficient exponent)| =
        quantized (significant coefficient exponent) := by
    intro negates
    cases negates with
    | true => exact (abs_neg _).trans (abs_of_nonneg hnonneg)
    | false => exact abs_of_nonneg hnonneg
  exact ⟨_, rfl, hsigned _⟩

theorem to_paise_nothing {s : String} (h : ∀ coefficient exponent, ¬ Denotes s coefficient exponent)
    (hnan : ¬ NanText s) : toPaise (some s) = .ok 0 := by
  unfold toPaise
  dsimp only
  split
  · rfl
  · cases hread : readDecimal (stripParens (splitMarker (cleaned s)).2) with
    | none => rfl
    | some read =>
      obtain ⟨body, hbare, hisnan, hfinite⟩ := read_bare hread
      cases read with
      | nan => exact absurd ⟨body, hbare, hisnan rfl⟩ hnan
      | infinite => rfl
      | finite negative coefficient exponent =>
        exact absurd ⟨body, hbare, hfinite negative coefficient exponent rfl⟩
          (h coefficient exponent)

end Caflow.Banking
