import Mathlib

namespace Caflow.Delimited

/-- The characters `str.splitlines` ends a line at. -/
def isBreak (c : Char) : Bool :=
  (10 ≤ c.toNat && c.toNat ≤ 13) || (28 ≤ c.toNat && c.toNat ≤ 30) || c.toNat == 0x85 ||
    c.toNat == 0x2028 || c.toNat == 0x2029

/-- The rest of a line that has begun, and the lines after it. A break at the very end begins no
line. -/
def splitLinesFrom (begun : List Char) : List Char → List (List Char)
  | [] => if begun = [] then [] else [begun.reverse]
  | '\r' :: '\n' :: cs => begun.reverse :: splitLinesFrom [] cs
  | c :: cs =>
    if isBreak c then begun.reverse :: splitLinesFrom [] cs else splitLinesFrom (c :: begun) cs

def splitLines (cs : List Char) : List (List Char) := splitLinesFrom [] cs

section
variable {α : Type*}

/-- Where the fields before it hold no separator, the first one is where they end. -/
theorem cut_first {s : α} {x y a b : List α} (hx : s ∉ x) (hy : s ∉ y) :
    x ++ s :: a = y ++ s :: b ↔ x = y ∧ a = b := by
  induction x generalizing y with
  | nil =>
    cases y with
    | nil => simp
    | cons d y =>
      have hd : s ≠ d := fun h => hy (h ▸ List.mem_cons_self)
      simp [hd]
  | cons c x ih =>
    cases y with
    | nil =>
      have hc : c ≠ s := fun h => hx (h ▸ List.mem_cons_self)
      simp [hc]
    | cons d y =>
      have hx' : s ∉ x := fun h => hx (List.mem_cons_of_mem c h)
      have hy' : s ∉ y := fun h => hy (List.mem_cons_of_mem d h)
      rw [List.cons_append, List.cons_append, List.cons.injEq, ih hx' hy', List.cons.injEq, and_assoc]

/-- Where the fields after it hold no separator, the last one is where they begin. -/
theorem cut_last {s : α} {x y a b : List α} (ha : s ∉ a) (hb : s ∉ b) :
    x ++ s :: a = y ++ s :: b ↔ x = y ∧ a = b := by
  have hcut := cut_first (x := a.reverse) (y := b.reverse) (a := x.reverse) (b := y.reverse)
    (mt List.mem_reverse.mp ha) (mt List.mem_reverse.mp hb)
  rw [← List.reverse_inj, List.reverse_append, List.reverse_append, List.reverse_cons,
    List.reverse_cons, List.append_assoc, List.append_assoc, List.singleton_append,
    List.singleton_append, hcut, List.reverse_inj, List.reverse_inj, and_comm]

end

variable {α : Type*} [DecidableEq α]

/-- The rest of a field that has begun, and the fields after it; of a separator that has begun so many
items are left to pass over. -/
def splitTextFrom (sep : List α) : ℕ → List α → List α → List (List α)
  | _, begun, [] => [begun.reverse]
  | skip + 1, begun, _ :: cs => splitTextFrom sep skip begun cs
  | 0, begun, c :: cs =>
    if sep.isPrefixOf (c :: cs) then begun.reverse :: splitTextFrom sep (sep.length - 1) [] cs
    else splitTextFrom sep 0 (c :: begun) cs

/-- The fields between the separators, each found as early as it can be. -/
def splitText (sep cs : List α) : List (List α) := splitTextFrom sep 0 [] cs

theorem split_lines_step {c : Char} (h : isBreak c = false) (begun cs : List Char) :
    splitLinesFrom begun (c :: cs) = splitLinesFrom (c :: begun) cs := by
  cases cs with
  | nil => simp [splitLinesFrom, h]
  | cons d cs =>
    have hc : c ≠ '\r' := by
      rintro rfl
      cases h
    rw [splitLinesFrom.eq_def]
    split
    · cases ‹c :: d :: cs = []›
    · rename_i he
      exact absurd (List.cons.inj he).1 hc
    · rename_i he
      obtain ⟨rfl, rfl⟩ := List.cons.inj he
      simp [h]

theorem split_lines_line {line : List Char} (h : ∀ c ∈ line, isBreak c = false)
    (begun cs : List Char) :
    splitLinesFrom begun (line ++ cs) = splitLinesFrom (line.reverse ++ begun) cs := by
  induction line generalizing begun with
  | nil => rfl
  | cons c line ih =>
    obtain ⟨hc, hrest⟩ := List.forall_mem_cons.mp h
    rw [List.cons_append, split_lines_step hc, ih hrest, List.reverse_cons, List.append_assoc,
      List.singleton_append]

theorem split_lines_newline (begun cs : List Char) :
    splitLinesFrom begun ('\n' :: cs) = begun.reverse :: splitLinesFrom [] cs := by
  cases cs <;> simp [splitLinesFrom, isBreak]

/-- Lines that hold no break and are not blank are read back as they were joined. -/
theorem split_lines_joined {lines : List (List Char)}
    (h : ∀ line ∈ lines, line ≠ [] ∧ ∀ c ∈ line, isBreak c = false) :
    splitLines (['\n'].intercalate lines) = lines := by
  unfold splitLines
  induction lines with
  | nil => rfl
  | cons line lines ih =>
    obtain ⟨⟨hne, hline⟩, hrest⟩ := List.forall_mem_cons.mp h
    cases lines with
    | nil =>
      have hlast := split_lines_line hline [] []
      rw [List.append_nil, List.append_nil] at hlast
      rw [List.intercalate_singleton, hlast, splitLinesFrom, if_neg (by simpa using hne),
        List.reverse_reverse]
    | cons next lines =>
      have hjoin : ['\n'].intercalate (line :: next :: lines) =
          line ++ '\n' :: ['\n'].intercalate (next :: lines) := by
        simp [List.intercalate]
      rw [hjoin, split_lines_line hline, split_lines_newline, ih hrest, List.append_nil,
        List.reverse_reverse]

theorem split_text_field {s : α} {sep field : List α} (h : ∀ c ∈ field, c ≠ s) (begun cs : List α) :
    splitTextFrom (s :: sep) 0 begun (field ++ cs) =
      splitTextFrom (s :: sep) 0 (field.reverse ++ begun) cs := by
  induction field generalizing begun with
  | nil => rfl
  | cons c field ih =>
    obtain ⟨hc, hrest⟩ := List.forall_mem_cons.mp h
    rw [List.cons_append, splitTextFrom, if_neg (by simp [Ne.symm hc]), ih hrest, List.reverse_cons,
      List.append_assoc, List.singleton_append]

theorem split_text_skip (sep skipped begun cs : List α) :
    splitTextFrom sep skipped.length begun (skipped ++ cs) = splitTextFrom sep 0 begun cs := by
  induction skipped with
  | nil => rfl
  | cons c skipped ih => exact ih

theorem split_text_separator (s : α) (sep begun cs : List α) :
    splitTextFrom (s :: sep) 0 begun (s :: sep ++ cs) =
      begun.reverse :: splitTextFrom (s :: sep) 0 [] cs := by
  have hprefix : (s :: sep).isPrefixOf (s :: (sep ++ cs)) = true :=
    List.isPrefixOf_iff_prefix.mpr ⟨cs, rfl⟩
  rw [List.cons_append, splitTextFrom, if_pos hprefix, List.length_cons, Nat.add_sub_cancel,
    split_text_skip]

/-- Fields in which the separator cannot begin are read back as they were joined. -/
theorem split_text_joined {s : α} {sep : List α} {fields : List (List α)} (hne : fields ≠ [])
    (h : ∀ field ∈ fields, ∀ c ∈ field, c ≠ s) :
    splitText (s :: sep) ((s :: sep).intercalate fields) = fields := by
  unfold splitText
  induction fields with
  | nil => exact absurd rfl hne
  | cons field fields ih =>
    obtain ⟨hfield, hrest⟩ := List.forall_mem_cons.mp h
    cases fields with
    | nil =>
      have hlast : splitTextFrom (s :: sep) 0 [] (field ++ []) = [field.reverse.reverse] := by
        rw [split_text_field hfield, splitTextFrom, List.append_nil]
      rw [List.append_nil, List.reverse_reverse] at hlast
      rw [List.intercalate_singleton, hlast]
    | cons next fields =>
      have hjoin : (s :: sep).intercalate (field :: next :: fields) =
          field ++ (s :: sep ++ (s :: sep).intercalate (next :: fields)) := by
        simp [List.intercalate]
      rw [hjoin, split_text_field hfield, split_text_separator, ih (by simp) hrest, List.append_nil,
        List.reverse_reverse]

end Caflow.Delimited
