import Caflow.Lib.Dict

namespace Caflow.FirstSeen
open Dict (get)

section
variable {α β γ κ ρ : Type*} [DecidableEq κ] (key : α → Option κ) (mark : α → ρ)
  (judge : α → Option ρ → β) (judge' : α → Option ρ → γ)

/-- The item that had a key first keeps it. -/
def register (seen : List (κ × ρ)) (a : α) : List (κ × ρ) :=
  (key a).elim seen fun k => if (get seen k).isSome then seen else seen ++ [(k, mark a)]

/-- Each item is judged with the mark of the one that had its key before it. -/
def answers : List (κ × ρ) → List α → List β
  | _, [] => []
  | seen, a :: as => judge a ((key a).bind (get seen)) :: answers (register key mark seen a) as

/-- The mark of the first item that has an item's key. -/
def earlier (before : List α) (a : α) : Option ρ :=
  (key a).bind fun k => (before.find? fun b => key b = some k).map mark

variable {key mark judge judge'}

theorem get_register (seen : List (κ × ρ)) (a : α) (k : κ) :
    get (register key mark seen a) k =
      (get seen k).or (if key a = some k then some (mark a) else none) := by
  unfold register
  cases hkey : key a with
  | none => simp
  | some k' =>
    simp only [Option.elim, Option.some.injEq]
    split
    · rename_i hseen
      obtain ⟨r, hr⟩ := Option.isSome_iff_exists.mp hseen
      split
      · rename_i hk
        rw [← hk, hr, Option.some_or]
      · rw [Option.or_none]
    · simp [Dict.get_append, Dict.get]

theorem get_registered (seen : List (κ × ρ)) (as : List α) (k : κ) :
    get (as.foldl (register key mark) seen) k =
      (get seen k).or ((as.find? fun a => key a = some k).map mark) := by
  induction as generalizing seen with
  | nil => simp
  | cons a as ih =>
    rw [List.foldl_cons, ih, get_register, Option.or_assoc, List.find?_cons]
    by_cases ha : key a = some k
    · simp [ha]
    · simp [ha]

/-- Only what is looked up in it matters of what has been seen. -/
theorem answers_congr {seen seen' : List (κ × ρ)} (h : ∀ k, get seen k = get seen' k)
    (as : List α) : answers key mark judge seen as = answers key mark judge seen' as := by
  induction as generalizing seen seen' with
  | nil => rfl
  | cons a as ih =>
    have hlookup : get seen = get seen' := funext h
    have hnext : ∀ k, get (register key mark seen a) k = get (register key mark seen' a) k :=
      fun k => by rw [get_register, get_register, h]
    rw [answers, answers, hlookup, ih hnext]

theorem answers_append (seen : List (κ × ρ)) (as bs : List α) :
    answers key mark judge seen (as ++ bs) = answers key mark judge seen as ++
      answers key mark judge (as.foldl (register key mark) seen) bs := by
  induction as generalizing seen with
  | nil => rfl
  | cons a as ih => rw [List.cons_append, answers, answers, ih, List.cons_append, List.foldl_cons]

@[simp] theorem answers_length (seen : List (κ × ρ)) (as : List α) :
    (answers key mark judge seen as).length = as.length := by
  induction as generalizing seen with
  | nil => rfl
  | cons a as ih => rw [answers, List.length_cons, List.length_cons, ih]

theorem bind_registered (before : List α) (a : α) :
    (key a).bind (get (before.foldl (register key mark) [])) = earlier key mark before a := by
  have hlookup : get (before.foldl (register key mark) []) =
      fun k => (before.find? fun b => key b = some k).map mark :=
    funext fun k => (get_registered [] before k).trans (Option.none_or)
  rw [hlookup, earlier]

theorem answers_split (before after : List α) (a : α) :
    answers key mark judge [] (before ++ a :: after) = answers key mark judge [] before ++
      judge a (earlier key mark before a) ::
        answers key mark judge ((before ++ [a]).foldl (register key mark) []) after := by
  rw [answers_append, answers, bind_registered, List.foldl_append]
  rfl

theorem earlier_none_iff {before : List α} {a : α} {k : κ} (hkey : key a = some k) :
    earlier key mark before a = none ↔ ∀ b ∈ before, key b ≠ some k := by
  simp [earlier, hkey]

/-- What holds of every item's answer, given those before it, holds of all answers. -/
theorem answers_forall₂ {R : β → γ → Prop} {as : List α}
    (h : ∀ before a after, as = before ++ a :: after →
      R (judge a (earlier key mark before a)) (judge' a (earlier key mark before a))) :
    List.Forall₂ R (answers key mark judge [] as) (answers key mark judge' [] as) := by
  have hrest : ∀ before rest, as = before ++ rest →
      List.Forall₂ R (answers key mark judge (before.foldl (register key mark) []) rest)
        (answers key mark judge' (before.foldl (register key mark) []) rest) := by
    intro before rest
    induction rest generalizing before with
    | nil => exact fun _ => .nil
    | cons a rest ih =>
      intro he
      rw [answers, answers, bind_registered, ← List.foldl_concat (register key mark)]
      exact .cons (h before a rest he) (ih (before ++ [a]) (by simp [he]))
  exact hrest [] as rfl

theorem mem_answers {as : List α} {v : β} (hv : v ∈ answers key mark judge [] as) :
    ∃ before a after, as = before ++ a :: after ∧ v = judge a (earlier key mark before a) := by
  have hrest : ∀ before rest, as = before ++ rest →
      v ∈ answers key mark judge (before.foldl (register key mark) []) rest →
      ∃ before a after, as = before ++ a :: after ∧ v = judge a (earlier key mark before a) := by
    intro before rest
    induction rest generalizing before with
    | nil => exact fun _ hnil => absurd hnil List.not_mem_nil
    | cons a rest ih =>
      intro he hv
      rw [answers, bind_registered, ← List.foldl_concat (register key mark)] at hv
      rcases List.mem_cons.mp hv with rfl | hv
      · exact ⟨before, a, rest, he, rfl⟩
      · exact ih (before ++ [a]) (by simp [he]) hv
  exact hrest [] as rfl hv

/-- What holds of any item and a later one, given those before them, holds of their answers. -/
theorem answers_pairwise {R : β → β → Prop} {as : List α}
    (h : ∀ before a between b after, as = before ++ a :: (between ++ b :: after) →
      R (judge a (earlier key mark before a))
        (judge b (earlier key mark (before ++ a :: between) b))) :
    (answers key mark judge [] as).Pairwise R := by
  induction as using List.reverseRecOn with
  | nil => exact .nil
  | append_singleton as b ih =>
    rw [answers_split, List.pairwise_append]
    refine ⟨ih ?_, List.pairwise_singleton _ _, ?_⟩
    · intro before a between b' after he
      exact h before a between b' (after ++ [b]) (by simp [he])
    · intro v hv w hw
      obtain ⟨before, a, between, rfl, rfl⟩ := mem_answers hv
      obtain rfl := List.mem_singleton.mp hw
      exact h before a between b [] (by simp)

/-- Without an item that keeps no key, or a key that was another's before it, the other answers are
what they were. -/
theorem answers_without {before after : List α} {a : α}
    (h : key a = none ∨ earlier key mark before a ≠ none) :
    answers key mark judge [] (before ++ after) =
      (answers key mark judge [] (before ++ a :: after)).eraseIdx before.length := by
  have hsame : ∀ k, get (before.foldl (register key mark) []) k =
      get ((before ++ [a]).foldl (register key mark) []) k := by
    intro k
    rw [List.foldl_concat, get_register]
    by_cases ha : key a = some k
    · rcases h with h | h
      · rw [h] at ha
        cases ha
      · rw [← bind_registered, ha, Option.bind_some] at h
        obtain ⟨r, hr⟩ := Option.ne_none_iff_exists'.mp h
        rw [hr, Option.some_or]
    · rw [if_neg ha, Option.or_none]
  rw [answers_split, answers_append, answers_congr hsame,
    List.eraseIdx_append_of_length_le (by simp), answers_length, Nat.sub_self,
    List.eraseIdx_cons_zero]

/-- What has been seen of one key has a say only in the answers of that key. -/
theorem answers_agree {seen seen' : List (κ × ρ)} {other : Option κ}
    (h : ∀ k, some k ≠ other → get seen k = get seen' k) {as : List α} {i : ℕ} {b : α}
    (hb : as[i]? = some b) (hkey : key b = none ∨ key b ≠ other) :
    (answers key mark judge seen as)[i]? = (answers key mark judge seen' as)[i]? := by
  induction as generalizing seen seen' i with
  | nil => rfl
  | cons a as ih =>
    cases i with
    | zero =>
      obtain rfl : a = b := by simpa using hb
      have hlookup : (key a).bind (get seen) = (key a).bind (get seen') := by
        cases ha : key a with
        | none => rfl
        | some k =>
          rw [ha] at hkey
          exact h k (hkey.resolve_left (by simp))
      rw [answers, answers, hlookup, List.getElem?_cons_zero, List.getElem?_cons_zero]
    | succ i =>
      refine ih (fun k hk => ?_) hb
      rw [get_register, get_register, h k hk]

/-- An item has a say only in the answers of later ones with its key. -/
theorem answers_other {before after : List α} {a b : α} {i : ℕ}
    (hb : (before ++ after)[i]? = some b) (hkey : key b = none ∨ key b ≠ key a) :
    (answers key mark judge [] (before ++ after))[i]? =
      ((answers key mark judge [] (before ++ a :: after)).eraseIdx before.length)[i]? := by
  rw [answers_split, answers_append, List.eraseIdx_append_of_length_le (by simp), answers_length,
    Nat.sub_self, List.eraseIdx_cons_zero]
  by_cases hi : i < before.length
  · rw [List.getElem?_append_left (by simpa using hi), List.getElem?_append_left (by simpa using hi)]
  · rw [List.getElem?_append_right (by omega)] at hb
    rw [List.getElem?_append_right (by simpa using hi), List.getElem?_append_right
      (by simpa using hi), answers_length]
    refine answers_agree (fun k hk => ?_) hb hkey
    rw [List.foldl_concat, get_register, if_neg (Ne.symm hk), Option.or_none]

end

end Caflow.FirstSeen
