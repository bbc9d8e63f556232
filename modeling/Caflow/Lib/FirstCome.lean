import Mathlib

namespace Caflow.FirstCome

section
variable {α β κ : Type*} [DecidableEq κ] (keyA : α → κ) (keyB : β → κ)

/-- Each item takes the first partner of its key that is not taken yet. What nobody took is left. -/
def matchUp : List α → List β → List (α × Option β) × List β
  | [], bs => ([], bs)
  | a :: as, bs =>
    match bs.find? (fun b => keyB b = keyA a) with
    | none => ((a, none) :: (matchUp as bs).1, (matchUp as bs).2)
    | some b =>
      let left := bs.eraseP (fun b => keyB b = keyA a)
      ((a, some b) :: (matchUp as left).1, (matchUp as left).2)

variable {keyA keyB}

theorem match_up_untaken (h : ∀ b ∈ bs, keyB b ≠ keyA a) :
    matchUp keyA keyB (a :: as) bs =
      ((a, none) :: (matchUp keyA keyB as bs).1, (matchUp keyA keyB as bs).2) := by
  have hfind : bs.find? (fun b => keyB b = keyA a) = none :=
    List.find?_eq_none.mpr fun b hb => by simpa using h b hb
  rw [matchUp, hfind]

theorem match_up_taken (hbefore : ∀ b ∈ before, keyB b ≠ keyA a) (hb : keyB b = keyA a) :
    matchUp keyA keyB (a :: as) (before ++ b :: after) =
      ((a, some b) :: (matchUp keyA keyB as (before ++ after)).1,
        (matchUp keyA keyB as (before ++ after)).2) := by
  have hnone : before.find? (fun b => keyB b = keyA a) = none :=
    List.find?_eq_none.mpr fun b hb => by simpa using hbefore b hb
  have hfind : (before ++ b :: after).find? (fun b => keyB b = keyA a) = some b := by
    rw [List.find?_append, hnone, Option.none_or, List.find?_cons_of_pos (by simpa using hb)]
  have herase : (before ++ b :: after).eraseP (fun b => keyB b = keyA a) = before ++ after := by
    rw [List.eraseP_append_right _ (by simpa using hbefore),
      List.eraseP_cons_of_pos (by simpa using hb)]
  rw [matchUp, hfind, herase]

variable (keyB) in
/-- A key is nobody's, or somebody is the first to have it. -/
theorem first_of_key (bs : List β) (k : κ) :
    (∀ b ∈ bs, keyB b ≠ k) ∨
      ∃ before b after, bs = before ++ b :: after ∧ keyB b = k ∧ ∀ b ∈ before, keyB b ≠ k := by
  by_cases h : ∀ b ∈ bs, keyB b ≠ k
  · exact .inl h
  · push Not at h
    obtain ⟨b, hb, hk⟩ := h
    obtain ⟨first, before, after, hbefore, hfirst, hbs, -⟩ :=
      List.exists_of_eraseP (p := fun b => keyB b = k) hb (by simpa using hk)
    exact .inr ⟨before, first, after, hbs, by simpa using hfirst,
      fun b hb => by simpa using hbefore b hb⟩

section
variable (keyA keyB)

/-- Everyone is listed once, in order. -/
theorem match_up_first (as : List α) (bs : List β) :
    (matchUp keyA keyB as bs).1.map Prod.fst = as := by
  induction as generalizing bs with
  | nil => rfl
  | cons a as ih =>
    rcases first_of_key keyB bs (keyA a) with hnone | ⟨before, b, after, rfl, hb, hbefore⟩
    · rw [match_up_untaken hnone, List.map_cons, ih]
    · rw [match_up_taken hbefore hb, List.map_cons, ih]

/-- Every partner is taken once or left once. -/
theorem match_up_perm (as : List α) (bs : List β) :
    ((matchUp keyA keyB as bs).1.filterMap Prod.snd ++ (matchUp keyA keyB as bs).2).Perm bs := by
  induction as generalizing bs with
  | nil => exact .refl _
  | cons a as ih =>
    rcases first_of_key keyB bs (keyA a) with hnone | ⟨before, b, after, rfl, hb, hbefore⟩
    · rw [match_up_untaken hnone, List.filterMap_cons_none rfl]
      exact ih bs
    · rw [match_up_taken hbefore hb]
      exact ((ih _).cons b).trans List.perm_middle.symm

end

theorem match_up_key (as : List α) (bs : List β) :
    ∀ p ∈ (matchUp keyA keyB as bs).1, ∀ b ∈ p.2, keyB b = keyA p.1 := by
  induction as generalizing bs with
  | nil => nofun
  | cons a as ih =>
    rcases first_of_key keyB bs (keyA a) with hnone | ⟨before, b, after, rfl, hb, hbefore⟩
    · rw [match_up_untaken hnone]
      rintro p (_ | ⟨_, hp⟩)
      · nofun
      · exact ih bs p hp
    · rw [match_up_taken hbefore hb]
      rintro p (_ | ⟨_, hp⟩)
      · rintro b' ⟨⟩
        exact hb
      · exact ih _ p hp

variable (keyA keyB) in
/-- Those of one key are paired in order, first with first. -/
theorem match_up_filter (as : List α) (bs : List β) (k : κ) :
    ((matchUp keyA keyB as bs).1.filter (fun p => keyA p.1 = k),
        (matchUp keyA keyB as bs).2.filter (fun b => keyB b = k)) =
      (as.filter (fun a => keyA a = k)).zipLeft' (bs.filter (fun b => keyB b = k)) := by
  induction as generalizing bs with
  | nil => rfl
  | cons a as ih =>
    have hstep : ∀ (o : Option β) (rest : List β),
        ((((a, o) :: (matchUp keyA keyB as rest).1).filter (fun p => keyA p.1 = k),
          (matchUp keyA keyB as rest).2.filter (fun b => keyB b = k))) =
        if keyA a = k then
          ((a, o) :: ((as.filter (fun a => keyA a = k)).zipLeft'
              (rest.filter (fun b => keyB b = k))).1,
            ((as.filter (fun a => keyA a = k)).zipLeft' (rest.filter (fun b => keyB b = k))).2)
        else (as.filter (fun a => keyA a = k)).zipLeft' (rest.filter (fun b => keyB b = k)) := by
      intro o rest
      rw [← ih rest]
      by_cases ha : keyA a = k
      · rw [List.filter_cons_of_pos (by simpa using ha), if_pos ha]
      · rw [List.filter_cons_of_neg (by simpa using ha), if_neg ha]
    rcases first_of_key keyB bs (keyA a) with hnone | ⟨before, b, after, rfl, hb, hbefore⟩
    · rw [match_up_untaken hnone, hstep none bs]
      by_cases ha : keyA a = k
      · have hempty : bs.filter (fun b => keyB b = k) = [] :=
          List.filter_eq_nil_iff.mpr fun b hb => by simpa [ha] using hnone b hb
        rw [if_pos ha, List.filter_cons_of_pos (by simpa using ha), hempty, List.zipLeft'_cons_nil,
          List.zipLeft'_nil_right]
      · rw [if_neg ha, List.filter_cons_of_neg (by simpa using ha)]
    · rw [match_up_taken hbefore hb, hstep (some b) (before ++ after)]
      by_cases ha : keyA a = k
      · have hfirst : before.filter (fun b => keyB b = k) = [] :=
          List.filter_eq_nil_iff.mpr fun b hb => by simpa [ha] using hbefore b hb
        rw [if_pos ha, List.filter_cons_of_pos (by simpa using ha), List.filter_append,
          List.filter_append, hfirst, List.nil_append, List.nil_append,
          List.filter_cons_of_pos (by simpa using hb.trans ha), List.zipLeft'_cons_cons]
      · have hother : ¬ keyB b = k := hb ▸ ha
        rw [if_neg ha, List.filter_cons_of_neg (by simpa using ha), List.filter_append,
          List.filter_append, List.filter_cons_of_neg (by simpa using hother)]

end

section
variable {α κ : Type*} [DecidableEq κ]

/-- Those of one key put first, in an order of their own. -/
def toFront (f : α → κ) (k : κ) (front as : List α) : List α :=
  front ++ as.filter (fun a => f a ≠ k)

variable {f : α → κ} {front as : List α}

theorem front_perm (h : front.Perm (as.filter (fun a => f a = k))) :
    (toFront f k front as).Perm as := by
  refine (h.append_right _).trans ?_
  have hsplit := List.filter_append_perm (fun a => decide (f a = k)) as
  simpa only [decide_not] using hsplit

theorem front_key (h : front.Perm (as.filter (fun a => f a = k))) :
    (toFront f k front as).filter (fun a => f a = k) = front := by
  have hfront : front.filter (fun a => f a = k) = front :=
    List.filter_eq_self.mpr fun a ha => (List.mem_filter.mp (h.mem_iff.mp ha)).2
  have hrest : (as.filter (fun a => f a ≠ k)).filter (fun a => f a = k) = [] :=
    List.filter_eq_nil_iff.mpr fun a ha => by simpa using (List.mem_filter.mp ha).2
  rw [toFront, List.filter_append, hfront, hrest, List.append_nil]

theorem front_other (h : front.Perm (as.filter (fun a => f a = k))) (hk : k' ≠ k) :
    (toFront f k front as).filter (fun a => f a = k') = as.filter (fun a => f a = k') := by
  have hfront : front.filter (fun a => f a = k') = [] := by
    refine List.filter_eq_nil_iff.mpr fun a ha => ?_
    have hak : f a = k := by simpa using (List.mem_filter.mp (h.mem_iff.mp ha)).2
    simpa [hak] using Ne.symm hk
  rw [toFront, List.filter_append, hfront, List.nil_append, List.filter_filter]
  apply List.filter_congr
  intro a _
  by_cases ha : f a = k'
  · simp [ha, hk]
  · simp [ha]

end

/-- Sums that are the same, of amounts that are the same off one key, are the same at that key. -/
theorem sum_differs_once {κ M : Type*} [DecidableEq κ] [AddCommGroup M] {keys : List κ} {k : κ}
    {f g : κ → M} (hkeys : keys.Nodup) (hk : k ∈ keys) (hoff : ∀ k' ≠ k, f k' = g k')
    (h : (keys.map f).sum = (keys.map g).sum) : f k = g k := by
  rw [← List.sum_map_erase f hk, ← List.sum_map_erase g hk,
    List.map_congr_left fun k' hk' => hoff k' (hkeys.mem_erase_iff.mp hk').1] at h
  exact add_right_cancel h

/-- Pairing in order is zipping; whoever is left over has no partner. -/
theorem zip_left_eq (as : List α) (bs : List β) :
    as.zipLeft' bs = ((as.zip bs).map (fun p => (p.1, some p.2)) ++
      (as.drop bs.length).map (fun a => (a, none)), bs.drop as.length) := by
  induction as generalizing bs with
  | nil => simp
  | cons a as ih =>
    cases bs with
    | nil => simp
    | cons b bs => simp [ih]

section
variable {α β γ : Type*} {f : α → γ} {g : β → γ} {as as' : List α} {bs bs' : List β}

/-- All items have a value, or all partners do, and whichever they are is not the shorter list. -/
def Uniform (f : α → γ) (g : β → γ) (as : List α) (bs : List β) (v : γ) : Prop :=
  ((∀ a ∈ as, f a = v) ∧ bs.length ≤ as.length) ∨ ((∀ b ∈ bs, g b = v) ∧ as.length ≤ bs.length)

theorem Uniform.symm (h : Uniform f g as bs v) : Uniform g f bs as v := Or.symm h

theorem Uniform.perm (h : Uniform f g as bs v) (ha : as'.Perm as) (hb : bs'.Perm bs) :
    Uniform f g as' bs' v := by
  rw [Uniform, ha.length_eq, hb.length_eq]
  exact h.imp (And.imp_left fun h a hmem => h a (ha.mem_iff.mp hmem))
    (And.imp_left fun h b hmem => h b (hb.mem_iff.mp hmem))

end

section
variable {α β γ : Type*} [DecidableEq γ] {f : α → γ} {g : β → γ} {as as' : List α}
  {bs bs' rest : List β}

/-- How many pairs agree when two lists are paired in order. -/
def agreements (f : α → γ) (g : β → γ) (as : List α) (bs : List β) : ℕ :=
  (as.zip bs).countP fun p => f p.1 = g p.2

theorem agreements_comm (f : α → γ) (g : β → γ) (as : List α) (bs : List β) :
    agreements f g as bs = agreements g f bs as := by
  unfold agreements
  rw [← List.zip_swap, List.countP_map]
  apply List.countP_congr
  intro p _
  simp [eq_comm]

@[simp] theorem agreements_cons (f : α → γ) (g : β → γ) :
    agreements f g (a :: as) (b :: bs) = agreements f g as bs + if f a = g b then 1 else 0 := by
  simp [agreements, List.countP_cons]

/-- Items that all have one value agree with as many of their partners as have it. -/
theorem agreements_all (h : ∀ a ∈ as, f a = v) (hlen : bs.length ≤ as.length) :
    agreements f g as bs = bs.countP (g · = v) := by
  induction bs generalizing as with
  | nil => simp [agreements]
  | cons b bs ih =>
    cases as with
    | nil => simp at hlen
    | cons a as =>
      obtain ⟨ha, has⟩ := List.forall_mem_cons.mp h
      rw [agreements_cons, ih has (by simpa using hlen), List.countP_cons, ha]
      simp [eq_comm]

theorem agreements_none (h : ∀ a ∈ as, ∀ b ∈ bs, f a ≠ g b) : agreements f g as bs = 0 := by
  rw [agreements, List.countP_eq_zero]
  intro p hp
  obtain ⟨ha, hb⟩ := List.of_mem_zip hp
  simpa using h p.1 ha p.2 hb

/-- Partners past the last item do not matter. -/
theorem agreements_append (h : as.length ≤ bs.length) :
    agreements f g as (bs ++ rest) = agreements f g as bs := by
  induction as generalizing bs with
  | nil => simp [agreements]
  | cons a as ih =>
    cases bs with
    | nil => simp at h
    | cons b bs => simp [ih (by simpa using h)]

/-- Uniform lists agree as often whatever their order. -/
theorem agreements_perm (h : ∀ a ∈ as, ∀ b ∈ bs, f a = g b → Uniform f g as bs (f a))
    (ha : as'.Perm as) (hb : bs'.Perm bs) : agreements f g as' bs' = agreements f g as bs := by
  by_cases hcommon : ∃ a ∈ as, ∃ b ∈ bs, f a = g b
  · obtain ⟨a, hamem, b, hbmem, hab⟩ := hcommon
    have huniform := h a hamem b hbmem hab
    have huniform' := huniform.perm ha hb
    rcases huniform with ⟨hall, hlen⟩ | ⟨hall, hlen⟩
    · have hall' : ∀ x ∈ as', f x = f a := fun x hx => hall x (ha.mem_iff.mp hx)
      rw [agreements_all hall hlen, agreements_all hall' (by rw [ha.length_eq, hb.length_eq]; exact hlen),
        hb.countP_eq]
    · have hall' : ∀ x ∈ bs', g x = f a := fun x hx => hall x (hb.mem_iff.mp hx)
      rw [agreements_comm f, agreements_comm f, agreements_all hall hlen,
        agreements_all hall' (by rw [ha.length_eq, hb.length_eq]; exact hlen), ha.countP_eq]
  · push Not at hcommon
    rw [agreements_none hcommon, agreements_none fun a hamem b hbmem =>
      hcommon a (ha.mem_iff.mp hamem) b (hb.mem_iff.mp hbmem)]

omit [DecidableEq γ] in
theorem front_two (ha : a ∈ as) (hu : u ∈ as) (hne : f u ≠ f a) :
    ∃ tail, as.Perm (a :: u :: tail) := by
  obtain ⟨before, after, rfl⟩ := List.append_of_mem ha
  have hu' : u ∈ before ++ after := by
    rcases List.mem_append.mp hu with hu | hu
    · exact List.mem_append_left _ hu
    · rcases List.mem_cons.mp hu with rfl | hu
      · exact absurd rfl hne
      · exact List.mem_append_right _ hu
  obtain ⟨first, last, hsplit⟩ := List.append_of_mem hu'
  refine ⟨first ++ last, List.perm_middle.trans (.cons a ?_)⟩
  rw [hsplit]
  exact List.perm_middle

/-- Pairing that agrees as often in every order. -/
def Steady (f : α → γ) (g : β → γ) (as : List α) (bs : List β) : Prop :=
  ∀ as' bs', as'.Perm as → bs'.Perm bs → agreements f g as' bs' = agreements f g as bs

theorem Steady.symm (h : Steady f g as bs) : Steady g f bs as := by
  intro bs' as' hb ha
  rw [agreements_comm g, agreements_comm g]
  exact h as' bs' ha hb

/-- A partner that agrees with no item would otherwise take the place of one that does. -/
theorem Steady.shorter (h : Steady f g as bs) (ha : a ∈ as) (hall : ∀ x ∈ as, f x = f a)
    (hb : b ∈ bs) (hab : g b = f a) (hw : w ∈ bs) (hne : g w ≠ f a) : bs.length ≤ as.length := by
  by_contra hlt
  obtain ⟨tail, hperm⟩ := front_two hb hw (hab.symm ▸ hne)
  cases as with
  | nil => cases ha
  | cons x as =>
    have hx : f x = f a := hall x List.mem_cons_self
    have hlen : as.length ≤ tail.length := by
      have := hperm.length_eq
      simp only [List.length_cons] at this hlt
      omega
    have hfirst := h (x :: as) (b :: (tail ++ [w])) (.refl _)
      ((((List.perm_append_singleton w tail)).cons b).trans hperm.symm)
    have hlast := h (x :: as) (w :: (tail ++ [b])) (.refl _)
      ((((List.perm_append_singleton b tail).cons w).trans (.swap b w tail)).trans hperm.symm)
    rw [agreements_cons, agreements_append hlen, hx, if_pos hab.symm] at hfirst
    rw [agreements_cons, agreements_append hlen, hx, if_neg (Ne.symm hne)] at hlast
    omega

theorem Steady.one_side (h : Steady f g as bs) (ha : a ∈ as) (hb : b ∈ bs) (hab : g b = f a) :
    (∀ x ∈ as, f x = f a) ∨ ∀ y ∈ bs, g y = f a := by
  by_contra hnone
  push Not at hnone
  obtain ⟨⟨u, hu, hune⟩, w, hw, hwne⟩ := hnone
  obtain ⟨atail, haperm⟩ := front_two ha hu hune
  obtain ⟨btail, hbperm⟩ := front_two hb hw (hab.symm ▸ hwne)
  have hstraight := h _ _ haperm.symm hbperm.symm
  have hcrossed := h _ (w :: b :: btail) haperm.symm ((List.Perm.swap b w btail).trans hbperm.symm)
  have huw : ¬ f u = g b := hab ▸ hune
  rw [agreements_cons, agreements_cons, if_pos hab.symm] at hstraight
  rw [agreements_cons, agreements_cons, if_neg huw, if_neg (Ne.symm hwne)] at hcrossed
  omega

/-- Pairing is steady exactly when every value found on both sides is all that one side has, and
that side is not the shorter one. -/
theorem steady_iff :
    Steady f g as bs ↔ ∀ a ∈ as, ∀ b ∈ bs, f a = g b → Uniform f g as bs (f a) := by
  refine ⟨fun h a ha b hb hab => ?_, fun h as' bs' ha hb => agreements_perm h ha hb⟩
  by_cases hA : ∀ x ∈ as, f x = f a
  · by_cases hB : ∀ y ∈ bs, g y = f a
    · exact (le_total bs.length as.length).imp (⟨hA, ·⟩) (⟨hB, ·⟩)
    · push Not at hB
      obtain ⟨w, hw, hne⟩ := hB
      exact .inl ⟨hA, h.shorter ha hA hb hab.symm hw hne⟩
  · have hB := (h.one_side ha hb hab.symm).resolve_left hA
    push Not at hA
    obtain ⟨u, hu, hne⟩ := hA
    rw [hab] at hB hne
    exact .inr ⟨hab ▸ hB, h.symm.shorter hb hB ha hab hu hne⟩

end

section
variable {α M : Type*} [AddCommGroup M] {w : α → M} {as as' : List α}

/-- What is left past the first few weighs the same in every order when there is nothing before it,
nothing left, or one weight throughout. -/
theorem drop_sum_perm (h : n = 0 ∨ as.length ≤ n ∨ ∀ x ∈ as, ∀ y ∈ as, w x = w y)
    (hperm : as'.Perm as) : ((as'.drop n).map w).sum = ((as.drop n).map w).sum := by
  rcases h with rfl | h | h
  · exact (hperm.map w).sum_eq
  · rw [List.drop_of_length_le h, List.drop_of_length_le (hperm.length_eq ▸ h)]
  · cases as with
    | nil => rw [hperm.eq_nil]
    | cons a as =>
      have heq : ∀ xs : List α, (∀ x ∈ xs, x ∈ a :: as) →
          (xs.map w).sum = xs.length • w a := fun xs hxs => by
        rw [List.map_congr_left fun x hx => h x (hxs x hx) a List.mem_cons_self, List.map_const',
          List.sum_replicate]
      rw [heq _ fun x hx => hperm.mem_iff.mp (List.mem_of_mem_drop hx),
        heq _ fun x hx => List.mem_of_mem_drop hx, List.length_drop, List.length_drop,
        hperm.length_eq]

theorem drop_sum_steady_iff :
    (∀ as' : List α, as'.Perm as → ((as'.drop n).map w).sum = ((as.drop n).map w).sum) ↔
      n = 0 ∨ as.length ≤ n ∨ ∀ x ∈ as, ∀ y ∈ as, w x = w y := by
  refine ⟨fun h => ?_, fun h as' hperm => drop_sum_perm h hperm⟩
  by_contra hnot
  push Not at hnot
  obtain ⟨hn, hlen, x, hx, y, hy, hne⟩ := hnot
  obtain ⟨tail, hperm⟩ := front_two (f := w) hx hy (Ne.symm hne)
  obtain ⟨m, rfl⟩ := Nat.exists_eq_succ_of_ne_zero hn
  have hm : m ≤ tail.length := by
    have := hperm.length_eq
    simp only [List.length_cons] at this
    omega
  have hlast : ∀ z, ((tail ++ [z]).drop m).map w = (tail.drop m).map w ++ [w z] := fun z => by
    rw [List.drop_append_of_le_length hm, List.map_append]
    rfl
  have hfirst := h (x :: (tail ++ [y])) (((List.perm_append_singleton y tail).cons x).trans hperm.symm)
  have hswap := h (y :: (tail ++ [x])) ((((List.perm_append_singleton x tail).cons y).trans
    (.swap x y tail)).trans hperm.symm)
  rw [List.drop_succ_cons, hlast, List.sum_append, List.sum_singleton] at hfirst hswap
  exact hne (add_left_cancel (hswap.trans hfirst.symm))

end

end Caflow.FirstCome
