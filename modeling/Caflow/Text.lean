import Mathlib

namespace Caflow.Text

/-- The characters Python strips as white space. -/
def isSpace (c : Char) : Bool :=
  (9 ≤ c.toNat && c.toNat ≤ 13) || (28 ≤ c.toNat && c.toNat ≤ 32) || c.toNat == 0x85 ||
    c.toNat == 0xa0 || c.toNat == 0x1680 || (0x2000 ≤ c.toNat && c.toNat ≤ 0x200a) ||
    c.toNat == 0x2028 || c.toNat == 0x2029 || c.toNat == 0x202f || c.toNat == 0x205f ||
    c.toNat == 0x3000

def strip (s : String) : String :=
  String.ofList ((s.toList.dropWhile isSpace).reverse.dropWhile isSpace).reverse

theorem strip_eq (s : String) :
    strip s = String.ofList ((s.toList.dropWhile isSpace).rdropWhile isSpace) := rfl

/-- A text that is stripped already stays as it is. -/
@[simp] theorem strip_strip (s : String) : strip (strip s) = strip s := by
  rw [strip_eq (strip s), strip_eq s, String.toList_ofList]
  set front := s.toList.dropWhile isSpace with hfront
  have hsettled : (front.rdropWhile isSpace).dropWhile isSpace = front.rdropWhile isSpace := by
    rw [List.dropWhile_eq_self_iff]
    intro hne
    have hprefix := List.rdropWhile_prefix isSpace (l := front)
    rw [List.IsPrefix.getElem hprefix hne]
    exact List.dropWhile_get_zero_not isSpace s.toList _
  rw [hsettled, List.rdropWhile_idempotent]

/-- The words between runs of white space. -/
def words (cs : List Char) : List (List Char) := (cs.splitOnP isSpace).filter (· ≠ [])

/-- The words with one blank between each and the next. -/
def squeeze (s : String) : String := String.ofList ([' '].intercalate (words s.toList))

theorem split_no_space (cs : List Char) : ∀ w ∈ cs.splitOnP isSpace, ∀ c ∈ w, isSpace c = false := by
  induction cs with
  | nil => simp
  | cons c cs ih =>
    rw [List.splitOnP_cons_eq_if_modifyHead]
    split
    · intro w hw
      rcases List.mem_cons.mp hw with rfl | hw
      · nofun
      · exact ih w hw
    · rename_i hc
      obtain ⟨first, rest, hsplit⟩ := List.exists_cons_of_ne_nil (List.splitOnP_ne_nil isSpace cs)
      rw [hsplit] at ih ⊢
      intro w hw d hd
      rcases List.mem_cons.mp hw with rfl | hw
      · rcases List.mem_cons.mp hd with rfl | hd
        · exact Bool.eq_false_of_not_eq_true hc
        · exact ih first List.mem_cons_self d hd
      · exact ih w (List.mem_cons_of_mem _ hw) d hd

/-- Words joined by one blank are split into the same words. -/
theorem words_intercalate {ws : List (List Char)}
    (h : ∀ w ∈ ws, w ≠ [] ∧ ∀ c ∈ w, isSpace c = false) :
    words ([' '].intercalate ws) = ws := by
  induction ws with
  | nil => rfl
  | cons w ws ih =>
    obtain ⟨⟨hne, hspace⟩, hrest⟩ := List.forall_mem_cons.mp h
    cases ws with
    | nil =>
      rw [List.intercalate_singleton, words, List.splitOnP_eq_singleton hspace,
        List.filter_singleton]
      simp [hne]
    | cons w' ws =>
      have hjoin : [' '].intercalate (w :: w' :: ws) = w ++ ' ' :: [' '].intercalate (w' :: ws) := by
        simp [List.intercalate]
      have htail := ih hrest
      unfold words at htail ⊢
      rw [hjoin, List.splitOnP_append_cons_of_forall_mem hspace ' ' (by decide),
        List.filter_cons_of_pos (by simpa using hne), htail]

@[simp] theorem squeeze_squeeze (s : String) : squeeze (squeeze s) = squeeze s := by
  unfold squeeze
  rw [String.toList_ofList, words_intercalate]
  intro w hw
  obtain ⟨hmem, hne⟩ := List.mem_filter.mp hw
  exact ⟨of_decide_eq_true hne, split_no_space _ w hmem⟩

/-- Lower case. No word compared here has a letter that a capital outside ASCII lowers to. -/
def lower (s : String) : String := String.ofList (s.toList.map Char.toLower)

def upper (s : String) : String := String.ofList (s.toList.map Char.toUpper)

@[simp] theorem upper_upper (s : String) : upper (upper s) = upper s := by
  simp [upper, Function.comp_def]

/-- The number that a run of digits writes. -/
def readNat (digits : List Char) : Option ℕ :=
  if digits = [] then none
  else digits.foldlM (fun n c => if c.isDigit then some (10 * n + (c.toNat - 48)) else none) 0

/-- Twos of the digits before the last three, read from the right. -/
def twos : List Char → List (List Char)
  | a :: b :: c :: rest => twos (c :: rest) ++ [[b, a]]
  | [] => []
  | digits => [digits.reverse]

/-- The last three digits, then twos: 12,34,567. -/
def groupIndian (digits : List Char) : List Char :=
  if digits.length ≤ 3 then digits
  else
    let rest := digits.take (digits.length - 3)
    [','].intercalate (twos rest.reverse) ++ [','] ++ digits.drop (digits.length - 3)

/-- Paise as rupees and paise, without a unit. -/
def rupeesPaise (paise : ℤ) : String :=
  let magnitude := paise.natAbs
  let cents := toString (magnitude % 100)
  (if paise < 0 then "-" else "") ++ String.ofList (groupIndian (toString (magnitude / 100)).toList) ++
    "." ++ (if magnitude % 100 < 10 then "0" ++ cents else cents)

/-- An amount inside a sentence, with its unit and a minus in words. -/
def rupeeText (paise : ℤ) : String :=
  (if paise < 0 then "minus " else "") ++ "₹" ++ rupeesPaise paise.natAbs

end Caflow.Text
