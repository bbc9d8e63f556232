import Caflow.Gst.ItcMatching
import Caflow.Lib.IsoDate

namespace Caflow.Gst.Gstin
open ItcMatching (Alphabet ascii)

/-- Position is the value. -/
def symbols : List Char := "0123456789ABCDEFGHIJKLMNOPQRSTUVWXYZ".toList

def gstinLength : ℕ := 15

def isDigit (c : Char) : Bool := '0' ≤ c && c ≤ '9'

def isCapital (c : Char) : Bool := 'A' ≤ c && c ≤ 'Z'

/-- What the pattern admits at a position: state code, PAN, entity number, a literal, check digit. -/
def shapeAt (i : ℕ) (c : Char) : Bool :=
  if i < 2 then isDigit c
  else if i < 7 then isCapital c
  else if i < 11 then isDigit c
  else if i = 11 then isCapital c
  else if i = 12 then (isDigit c && c ≠ '0') || isCapital c
  else if i = 13 then c = 'Z'
  else isDigit c || isCapital c

def gstinShape (g : List Char) : Bool :=
  g.length = gstinLength && g.zipIdx.all fun p => shapeAt p.2 p.1

/-- 01 to 38, 97 and 99. -/
def validStateCodes : List (List Char) :=
  ((List.range 38).map fun i => IsoDate.digits 2 (i + 1)) ++ [['9', '7'], ['9', '9']]

def value (c : Char) : ℕ := symbols.idxOf c

/-- A position's share of the total: the product's quotient and remainder. -/
def term (i : ℕ) (c : Char) : ℕ :=
  let product := value c * (if i % 2 = 1 then 2 else 1)
  product / symbols.length + product % symbols.length

/-- The total of the characters from a position on. -/
def total : ℕ → List Char → ℕ
  | _, [] => 0
  | i, c :: cs => term i c + total (i + 1) cs

/-- The check digit for the first fourteen characters. -/
def checksumChar (firstFourteen : List Char) : Except String Char :=
  if firstFourteen.length ≠ gstinLength - 1 then
    .error ("a GSTIN check digit is computed over 14 characters, got " ++
      toString firstFourteen.length)
  else match firstFourteen.find? (· ∉ symbols) with
    | some c => .error ("'" ++ c.toString ++ "' is not a GSTIN character")
    | none =>
      .ok (symbols.getD ((symbols.length - total 0 firstFourteen % symbols.length) % symbols.length) '0')

section
variable (alphabet : Alphabet)

/-- A GSTIN as it is read: trimmed, in capitals. -/
def reading (gstin : String) : List Char := (Text.strip gstin).toList.flatMap alphabet.upper

def isStateCode (code : List Char) : Bool := validStateCodes.any (· = code)

/-- What is wrong with a GSTIN. A blank one is of a party that is not registered. -/
def problemOf (g : List Char) : Except String (Option String) :=
  if g = [] then .ok none
  else if g.length ≠ gstinLength then
    .ok (some ("A GSTIN is " ++ toString gstinLength ++ " characters; this one is " ++
      toString g.length ++ "."))
  else if ¬ gstinShape g then
    .ok (some ("Not a GSTIN pattern. It is a 2-digit state code, then a 10-character " ++
      "PAN, then the entity number, then Z, then the check digit — e.g. 27AAPFU0939F1ZV."))
  else if ¬ isStateCode (g.take 2) then
    .ok (some (String.ofList (g.take 2) ++ " is not a GST state code. They run 01 to 38, plus 97 " ++
      "(Other Territory) and 99 (Centre Jurisdiction)."))
  else (checksumChar (g.take 14)).map fun expected =>
    if g.getD 14 '0' ≠ expected then
      some ("The check digit does not match: this GSTIN ends in " ++ (g.getD 14 '0').toString ++
        ", and the first 14 characters compute to " ++ expected.toString ++
        ". Usually two characters have been swapped — check the PAN.")
    else none

def problemWith (gstin : Option String) : Except String (Option String) :=
  gstin.elim (.ok none) fun gstin => problemOf (reading alphabet gstin)

def Accepted (gstin : String) : Prop := problemWith alphabet (some gstin) = .ok none

def Rejected (gstin : String) : Prop := ∃ text, problemWith alphabet (some gstin) = .ok (some text)

end

/-- Two adjacent characters exchanged. -/
def exchange (g : List Char) (i : ℕ) : List Char :=
  (g.set i (g.getD (i + 1) '0')).set (i + 1) (g.getD i '0')

/-- One character typed wrong, or two that are next to each other and not the same exchanged. -/
def OneSlip (g typed : List Char) : Prop :=
  (∃ i c, i < g.length ∧ c ∈ symbols ∧ c ≠ g.getD i '0' ∧ typed = g.set i c) ∨
    ∃ i, i + 1 < g.length ∧ g.getD i '0' ≠ g.getD (i + 1) '0' ∧ typed = exchange g i

theorem value_lt (h : c ∈ symbols) : value c < 36 := List.idxOf_lt_length_of_mem h

theorem value_injective (hc : c ∈ symbols) (h : value c = value d) : c = d := by
  unfold value at h
  exact (List.idxOf_inj hc).mp h

theorem term_even (hi : i % 2 = 0) (hc : c ∈ symbols) : term i c = value c := by
  have := value_lt hc
  simp only [term, hi, show symbols.length = 36 from rfl, zero_ne_one, if_false, mul_one]
  omega

theorem term_odd (hi : i % 2 = 1) (c : Char) :
    term i c = value c * 2 / 36 + value c * 2 % 36 := by
  simp only [term, hi, show symbols.length = 36 from rfl, if_true]

/-- Under either weight a share, modulo thirty-six, tells which character it is of. -/
theorem term_tells (i : ℕ) (hc : c ∈ symbols) (hd : d ∈ symbols)
    (h : term i c % 36 = term i d % 36) : c = d := by
  have hc' := value_lt hc
  have hd' := value_lt hd
  apply value_injective hc
  rcases Nat.mod_two_eq_zero_or_one i with hi | hi
  · rw [term_even hi hc, term_even hi hd] at h
    omega
  · rw [term_odd hi, term_odd hi] at h
    omega

/-- Values exchanged between the two weights come to the same only at the two ends. -/
theorem exchanged_values : ∀ v w : Fin 36, v ≠ w →
    (v.val + (w.val * 2 / 36 + w.val * 2 % 36)) % 36 =
      (w.val + (v.val * 2 / 36 + v.val * 2 % 36)) % 36 →
    (v = 0 ∧ w = 35) ∨ (v = 35 ∧ w = 0) := by
  decide +kernel

theorem exchanged_terms (i : ℕ) (hc : c ∈ symbols) (hd : d ∈ symbols) (hne : c ≠ d)
    (h : (term i c + term (i + 1) d) % 36 = (term i d + term (i + 1) c) % 36) :
    (c = '0' ∧ d = 'Z') ∨ (c = 'Z' ∧ d = '0') := by
  let v : Fin 36 := ⟨value c, value_lt hc⟩
  let w : Fin 36 := ⟨value d, value_lt hd⟩
  have hvw : v ≠ w := fun he => hne (value_injective hc (Fin.mk.inj he))
  have hends : (v = 0 ∧ w = 35) ∨ (v = 35 ∧ w = 0) := by
    apply exchanged_values v w hvw
    rcases Nat.mod_two_eq_zero_or_one i with hi | hi
    · have hnext : (i + 1) % 2 = 1 := by omega
      rwa [term_even hi hc, term_even hi hd, term_odd hnext, term_odd hnext] at h
    · have hnext : (i + 1) % 2 = 0 := by omega
      rw [term_odd hi, term_odd hi, term_even hnext hc, term_even hnext hd, add_comm,
        add_comm (value d * 2 / 36 + value d * 2 % 36)] at h
      exact h.symm
  rcases hends with ⟨h₁, h₂⟩ | ⟨h₁, h₂⟩
  · exact .inl ⟨value_injective hc (Fin.mk.inj h₁), value_injective hd (Fin.mk.inj h₂)⟩
  · exact .inr ⟨value_injective hc (Fin.mk.inj h₁), value_injective hd (Fin.mk.inj h₂)⟩

theorem total_set (cs : List Char) (i n : ℕ) (c : Char) (hn : n < cs.length) :
    total i (cs.set n c) + term (i + n) (cs.getD n '0') = total i cs + term (i + n) c := by
  induction cs generalizing i n with
  | nil => simp at hn
  | cons d cs ih =>
    cases n with
    | zero =>
      simp only [List.set_cons_zero, total, List.getD_cons_zero, Nat.add_zero]
      omega
    | succ n =>
      have hrest := ih (i + 1) n (by simpa using hn)
      simp only [List.set_cons_succ, total, List.getD_cons_succ]
      rw [show i + (n + 1) = i + 1 + n by omega]
      omega

theorem total_mod_lt (g : List Char) : (36 - total 0 g % 36) % 36 < symbols.length :=
  Nat.mod_lt _ (by decide)

theorem symbols_nodup : symbols.Nodup := by decide

/-- The check digit is another one where the totals differ. -/
theorem checksum_ok {g : List Char} (hlen : g.length = 14) (hg : ∀ c ∈ g, c ∈ symbols) :
    checksumChar g = .ok (symbols.getD ((36 - total 0 g % 36) % 36) '0') := by
  have hnone : g.find? (· ∉ symbols) = none := by simpa using hg
  unfold checksumChar
  rw [if_neg (by simp [hlen, gstinLength]), hnone]
  rfl

theorem checksum_tells (g h : List Char)
    (he : symbols.getD ((36 - total 0 g % 36) % 36) '0' =
      symbols.getD ((36 - total 0 h % 36) % 36) '0') : total 0 g % 36 = total 0 h % 36 := by
  rw [List.getD_eq_getElem _ _ (total_mod_lt g), List.getD_eq_getElem _ _ (total_mod_lt h)] at he
  have hindex := (List.Nodup.getElem_inj_iff symbols_nodup).mp he
  omega

theorem digit_mem (h : isDigit c) : c ∈ symbols := by
  simp only [isDigit, Bool.and_eq_true, decide_eq_true_eq] at h
  have hlow : 48 ≤ c.toNat := h.1
  have hhigh : c.toNat ≤ 57 := h.2
  have htable : ∀ n : Fin 10, Char.ofNat (48 + n) ∈ symbols := by decide
  have := htable ⟨c.toNat - 48, by omega⟩
  rwa [Nat.add_sub_cancel' hlow, Char.ofNat_toNat] at this

theorem capital_mem (h : isCapital c) : c ∈ symbols := by
  simp only [isCapital, Bool.and_eq_true, decide_eq_true_eq] at h
  have hlow : 65 ≤ c.toNat := h.1
  have hhigh : c.toNat ≤ 90 := h.2
  have htable : ∀ n : Fin 26, Char.ofNat (65 + n) ∈ symbols := by decide
  have := htable ⟨c.toNat - 65, by omega⟩
  rwa [Nat.add_sub_cancel' hlow, Char.ofNat_toNat] at this

theorem shape_mem (i : ℕ) (h : shapeAt i c) : c ∈ symbols := by
  unfold shapeAt at h
  split_ifs at h with h₁ h₂ h₃ h₄ h₅ h₆
  · exact digit_mem h
  · exact capital_mem h
  · exact digit_mem h
  · exact capital_mem h
  · rcases Bool.or_eq_true _ _ ▸ h with hdigit | hcapital
    · exact digit_mem (Bool.and_eq_true _ _ ▸ hdigit).1
    · exact capital_mem hcapital
  · rw [of_decide_eq_true h]
    decide
  · rcases Bool.or_eq_true _ _ ▸ h with hdigit | hcapital
    · exact digit_mem hdigit
    · exact capital_mem hcapital

/-- Before the check digit no position admits both the first character and the last. -/
theorem shape_apart (i : ℕ) (hi : i < 14) : ¬ (shapeAt i '0' ∧ shapeAt i 'Z') := by
  have htable : ∀ i : Fin 14, ¬ (shapeAt i '0' ∧ shapeAt i 'Z') := by decide
  exact htable ⟨i, hi⟩

/-- A reading of the right shape. -/
structure Shaped (g : List Char) : Prop where
  length : g.length = 15
  admits : ∀ i < 15, shapeAt i (g.getD i '0')

theorem shape_iff (g : List Char) : gstinShape g = true ↔ Shaped g := by
  unfold gstinShape
  rw [Bool.and_eq_true, decide_eq_true_eq, List.all_eq_true]
  constructor
  · rintro ⟨hlen, hall⟩
    refine ⟨hlen, fun i hi => ?_⟩
    have hi' : i < g.length := by
      rw [hlen]
      exact hi
    have := hall (g[i], i) (List.mem_zipIdx_iff_getElem?.mpr (List.getElem?_eq_getElem hi'))
    rwa [List.getD_eq_getElem _ _ hi']
  · intro h
    refine ⟨h.length, fun p hp => ?_⟩
    have hget := List.mem_zipIdx_iff_getElem?.mp hp
    obtain ⟨hi, he⟩ := List.getElem?_eq_some_iff.mp hget
    have := h.admits p.2 (h.length ▸ hi)
    rwa [List.getD_eq_getElem _ _ hi, he] at this

theorem Shaped.symbols (h : Shaped g) : ∀ c ∈ g, c ∈ symbols := by
  intro c hc
  obtain ⟨i, hi, rfl⟩ := List.getElem_of_mem hc
  have := h.admits i (h.length ▸ hi)
  rw [List.getD_eq_getElem _ _ hi] at this
  exact shape_mem i this

/-- The check digit of the first fourteen, where they are a GSTIN's. -/
def expected (g : List Char) : Char :=
  Gstin.symbols.getD ((36 - total 0 (g.take 14) % 36) % 36) '0'

theorem Shaped.checksum (h : Shaped g) : checksumChar (g.take 14) = .ok (expected g) :=
  checksum_ok (by simp [h.length]) fun c hc => h.symbols c (List.mem_of_mem_take hc)

section
variable {alphabet : Alphabet}

theorem accepted_shaped (haccepted : Accepted alphabet gstin) (hne : reading alphabet gstin ≠ []) :
    Shaped (reading alphabet gstin) ∧
      (reading alphabet gstin).getD 14 '0' = expected (reading alphabet gstin) := by
  unfold Accepted problemWith at haccepted
  simp only [Option.elim_some] at haccepted
  unfold problemOf at haccepted
  rw [if_neg hne] at haccepted
  split at haccepted
  · cases haccepted
  split at haccepted
  · cases haccepted
  rename_i hshape
  split at haccepted
  · cases haccepted
  have hshaped := (shape_iff _).mp (not_not.mp hshape)
  refine ⟨hshaped, ?_⟩
  rw [hshaped.checksum] at haccepted
  by_contra hcheck
  simp only [Except.map, if_pos hcheck] at haccepted
  cases haccepted

/-- What is not blank, and is no GSTIN or does not end in its check digit, is rejected. -/
theorem rejected_of (hne : reading alphabet typed ≠ [])
    (hwrong : Shaped (reading alphabet typed) →
      (reading alphabet typed).getD 14 '0' ≠ expected (reading alphabet typed)) :
    Rejected alphabet typed := by
  unfold Rejected problemWith
  simp only [Option.elim_some]
  by_cases hlen : (reading alphabet typed).length ≠ gstinLength
  · exact ⟨_, by simp only [problemOf, if_neg hne, if_pos hlen]; rfl⟩
  by_cases hshape : ¬ gstinShape (reading alphabet typed)
  · exact ⟨_, by simp only [problemOf, if_neg hne, if_neg hlen, if_pos hshape]; rfl⟩
  by_cases hstate : ¬ isStateCode ((reading alphabet typed).take 2)
  · exact ⟨_, by simp only [problemOf, if_neg hne, if_neg hlen, if_neg hshape, if_pos hstate]; rfl⟩
  have hshaped := (shape_iff _).mp (not_not.mp hshape)
  exact ⟨_, by
    simp only [problemOf, if_neg hne, if_neg hlen, if_neg hshape, if_neg hstate, hshaped.checksum,
      Except.map, if_pos (hwrong hshaped)]
    rfl⟩

end

/-- One character wrong before the check digit changes it; in its place it is no longer the one. -/
theorem wrong_character (hg : Shaped g) (hcheck : g.getD 14 '0' = expected g) (hi : i < 15)
    (hc : c ∈ symbols) (hne : c ≠ g.getD i '0') :
    (g.set i c).getD 14 '0' ≠ expected (g.set i c) := by
  have hlen := hg.length
  intro he
  by_cases hlast : i = 14
  · subst hlast
    have hsame : expected (g.set 14 c) = expected g := by
      unfold expected
      rw [List.take_set_of_le le_rfl]
    rw [hsame, ← hcheck, List.getD_eq_getElem _ _ (by simp [hlen]), List.getElem_set_self] at he
    exact hne he
  · have hbefore : i < 14 := by omega
    have hkept : (g.set i c).getD 14 '0' = g.getD 14 '0' := by
      rw [List.getD_eq_getElem?_getD, List.getElem?_set_ne hlast, ← List.getD_eq_getElem?_getD]
    have htake : (g.set i c).take 14 = (g.take 14).set i c := List.take_set
    have hi' : i < (g.take 14).length := by
      rw [List.length_take, hlen]
      omega
    have htotal := total_set (g.take 14) 0 i c hi'
    rw [hkept, hcheck] at he
    have hmod := checksum_tells _ _ he
    rw [htake] at hmod
    have hold : (g.take 14).getD i '0' = g.getD i '0' := by
      rw [List.getD_eq_getElem?_getD, List.getElem?_take_of_lt hbefore, ← List.getD_eq_getElem?_getD]
    rw [hold, Nat.zero_add] at htotal
    refine hne (term_tells i hc ?_ ?_)
    · rw [List.getD_eq_getElem _ _ (hlen ▸ hi)]
      exact hg.symbols _ (List.getElem_mem _)
    · omega

theorem getD_set_self {g : List Char} (hi : i < g.length) (c : Char) : (g.set i c).getD i '0' = c := by
  rw [List.getD_eq_getElem _ _ (by simpa using hi), List.getElem_set_self]

theorem getD_set_ne {g : List Char} (h : i ≠ j) (c : Char) :
    (g.set i c).getD j '0' = g.getD j '0' := by
  rw [List.getD_eq_getElem?_getD, List.getElem?_set_ne h, ← List.getD_eq_getElem?_getD]

theorem getD_take {g : List Char} (h : i < n) : (g.take n).getD i '0' = g.getD i '0' := by
  rw [List.getD_eq_getElem?_getD, List.getElem?_take_of_lt h, ← List.getD_eq_getElem?_getD]

theorem Shaped.mem (hg : Shaped g) (hi : i < 15) : g.getD i '0' ∈ Gstin.symbols :=
  shape_mem i (hg.admits i hi)

theorem exchange_first (hi : i + 1 < g.length) : (exchange g i).getD i '0' = g.getD (i + 1) '0' := by
  unfold exchange
  rw [getD_set_ne (by omega), getD_set_self (by omega)]

/-- Two characters exchanged change the check digit; the last one cannot take the place of the Z. -/
theorem exchanged_characters (hg : Shaped g) (hcheck : g.getD 14 '0' = expected g) (hi : i + 1 < 15)
    (hne : g.getD i '0' ≠ g.getD (i + 1) '0') (hshaped : Shaped (exchange g i)) :
    (exchange g i).getD 14 '0' ≠ expected (exchange g i) := by
  have hlen := hg.length
  intro he
  have hfirst := hshaped.admits i (by omega)
  rw [exchange_first (by omega)] at hfirst
  by_cases hlast : i = 13
  · subst hlast
    have hz := hg.admits 13 (by decide)
    have hz₁ : g.getD 13 '0' = 'Z' := by simpa [shapeAt] using hz
    have hz₂ : g.getD (13 + 1) '0' = 'Z' := by simpa [shapeAt] using hfirst
    exact hne (hz₁.trans hz₂.symm)
  · have hbefore : i + 1 < 14 := by omega
    have hkept : (exchange g i).getD 14 '0' = g.getD 14 '0' := by
      unfold exchange
      rw [getD_set_ne (by omega), getD_set_ne (by omega)]
    rw [hkept, hcheck] at he
    have hmod := checksum_tells _ _ he
    have hone := total_set (g.take 14) 0 i (g.getD (i + 1) '0') (by simp; omega)
    have htwo := total_set ((g.take 14).set i (g.getD (i + 1) '0')) 0 (i + 1) (g.getD i '0')
      (by simp; omega)
    rw [getD_take (by omega), Nat.zero_add] at hone
    rw [getD_set_ne (by omega), getD_take hbefore, Nat.zero_add] at htwo
    have htake : (exchange g i).take 14 =
        ((g.take 14).set i (g.getD (i + 1) '0')).set (i + 1) (g.getD i '0') := by
      unfold exchange
      rw [List.take_set, List.take_set]
    rw [htake] at hmod
    have hends := exchanged_terms i (hg.mem (by omega)) (hg.mem hi) hne (by omega)
    have hown := hg.admits i (by omega)
    rcases hends with ⟨h₁, h₂⟩ | ⟨h₁, h₂⟩
    · rw [h₁] at hown
      rw [h₂] at hfirst
      exact shape_apart i (by omega) ⟨hown, hfirst⟩
    · rw [h₁] at hown
      rw [h₂] at hfirst
      exact shape_apart i (by omega) ⟨hfirst, hown⟩

/-- Neither slip leaves a reading that validation takes. -/
theorem slip_caught (hg : Shaped g) (hcheck : g.getD 14 '0' = expected g) (h : OneSlip g typed) :
    typed ≠ [] ∧ (Shaped typed → typed.getD 14 '0' ≠ expected typed) := by
  have hlen := hg.length
  rcases h with ⟨i, c, hi, hc, hne, rfl⟩ | ⟨i, hi, hne, rfl⟩
  · exact ⟨List.ne_nil_of_length_pos (by simp [hlen]),
      fun _ => wrong_character hg hcheck (hlen ▸ hi) hc hne⟩
  · exact ⟨List.ne_nil_of_length_pos (by simp [exchange, hlen]),
      exchanged_characters hg hcheck (hlen ▸ hi) hne⟩

theorem symbols_unspaced : ∀ c ∈ symbols, Text.isSpace c = false := by
  have htable : symbols.all (fun c => !Text.isSpace c) := by decide
  simpa using htable

section
variable {alphabet : Alphabet}

/-- A text in the alphabet is read as it stands. -/
theorem reading_symbols (hupper : ∀ c ∈ symbols, alphabet.upper c = [c])
    (h : ∀ c ∈ gstin.toList, c ∈ symbols) : reading alphabet gstin = gstin.toList := by
  have hunspaced : ∀ c ∈ gstin.toList, Text.isSpace c = false :=
    fun c hc => symbols_unspaced c (h c hc)
  have hstrip : (Text.strip gstin).toList = gstin.toList := by
    rw [Text.strip_eq, String.toList_ofList]
    have hfront : gstin.toList.dropWhile Text.isSpace = gstin.toList := by
      refine List.dropWhile_eq_self_iff.mpr fun hne => ?_
      rw [hunspaced _ (List.getElem_mem _)]
      decide
    rw [hfront]
    refine List.rdropWhile_eq_self_iff.mpr fun hne => ?_
    rw [hunspaced _ (List.getLast_mem hne)]
    decide
  unfold reading
  rw [hstrip]
  calc gstin.toList.flatMap alphabet.upper
      = gstin.toList.flatMap fun c => [c] := List.flatMap_congr fun c hc => hupper c (h c hc)
    _ = gstin.toList := by simp

theorem slip_symbols (hg : ∀ c ∈ g, c ∈ symbols) (h : OneSlip g typed) :
    ∀ c ∈ typed, c ∈ symbols := by
  rcases h with ⟨i, c, -, hc, -, rfl⟩ | ⟨i, hi, -, rfl⟩
  · intro d hd
    rcases List.mem_or_eq_of_mem_set hd with hd | rfl
    · exact hg d hd
    · exact hc
  · have hmem : ∀ j < g.length, g.getD j '0' ∈ symbols := by
      intro j hj
      rw [List.getD_eq_getElem _ _ hj]
      exact hg _ (List.getElem_mem _)
    intro d hd
    rcases List.mem_or_eq_of_mem_set hd with hd | rfl
    · rcases List.mem_or_eq_of_mem_set hd with hd | rfl
      · exact hg d hd
      · exact hmem _ hi
    · exact hmem _ (by omega)

/-- Of an accepted GSTIN as it is read, one slip is never accepted; and so of one that is in the
alphabet already, as it is typed. -/
theorem one_slip_is_caught (hupper : ∀ c ∈ symbols, alphabet.upper c = [c])
    (haccepted : Accepted alphabet gstin) :
    (∀ typed, OneSlip (reading alphabet gstin) (reading alphabet typed) →
      Rejected alphabet typed) ∧
    ((∀ c ∈ gstin.toList, c ∈ symbols) → ∀ typed, OneSlip gstin.toList typed.toList →
      Rejected alphabet typed) := by
  have hread : ∀ typed, OneSlip (reading alphabet gstin) (reading alphabet typed) →
      Rejected alphabet typed := by
    intro typed hslip
    have hne : reading alphabet gstin ≠ [] := by
      intro hnil
      rw [hnil] at hslip
      rcases hslip with ⟨i, c, hi, -⟩ | ⟨i, hi, -⟩
      · simp at hi
      · simp at hi
    obtain ⟨hshaped, hcheck⟩ := accepted_shaped haccepted hne
    obtain ⟨hsome, hwrong⟩ := slip_caught hshaped hcheck hslip
    exact rejected_of hsome hwrong
  refine ⟨hread, fun hsymbols typed hslip => hread typed ?_⟩
  rwa [reading_symbols hupper hsymbols, reading_symbols hupper (slip_symbols hsymbols hslip)]

end

theorem ascii_symbols : ∀ c ∈ symbols, ascii.upper c = [c] := by
  have htable : symbols.all (fun c => ascii.upper c = [c]) := by decide
  simpa using htable

theorem one_slip_is_caught_on_two :
    Rejected ascii "27AAPFU0399F1ZV" ∧ Rejected ascii "27AAPFU0939F1ZW" := by
  have haccepted : Accepted ascii "27AAPFU0939F1ZV" := by
    unfold Accepted
    decide +kernel
  have hsymbols : "27AAPFU0939F1ZV".toList.all (· ∈ symbols) := by decide
  have hcaught := (one_slip_is_caught ascii_symbols haccepted).2 fun c hc =>
    of_decide_eq_true (List.all_eq_true.mp hsymbols c hc)
  exact ⟨hcaught _ (.inr ⟨8, by decide, by decide, by decide⟩),
    hcaught _ (.inl ⟨14, 'W', by decide, by decide, by decide, by decide⟩)⟩

/-- What is typed in small letters is read in capitals, so a capital in the place of one of them is
no slip. -/
theorem small_letter_replaced : ¬ ∀ gstin : String, gstin.toList.length = gstinLength →
    Accepted ascii gstin → ∀ i c, i < gstinLength → c ∈ symbols → c ≠ gstin.toList.getD i '0' →
      Rejected ascii (String.ofList (gstin.toList.set i c)) := by
  intro h
  have haccepted : Accepted ascii "27aapfu0939f1zv" := by
    unfold Accepted
    decide +kernel
  obtain ⟨text, htext⟩ := h "27aapfu0939f1zv" (by decide) haccepted 2 'A' (by decide) (by decide)
    (by decide)
  have htaken : problemWith ascii (some (String.ofList ("27aapfu0939f1zv".toList.set 2 'A'))) =
      .ok none := by decide +kernel
  rw [htaken] at htext
  cases htext

end Caflow.Gst.Gstin
