import Caflow.Lib.Tally

namespace Caflow.Drawdown
open Tally

structure OrderLine where
  id : ℕ
  quantity : ℤ
  deriving DecidableEq

def lineIds (lines : List OrderLine) : List ℕ := lines.map OrderLine.id

structure Order (ω : Type) where
  status : ω
  lines : List OrderLine
  deriving DecidableEq

/-- A line of an order and what has been taken of it. -/
structure OpenLine where
  orderLineId : ℕ
  orderedQty : ℤ
  takenQty : ℤ
  deriving DecidableEq

def OpenLine.openQty (line : OpenLine) : ℤ := max 0 (line.orderedQty - line.takenQty)

/-- A document against an order: whether it counts, and what its lines take of which order line. -/
structure Slip where
  order : Option ℕ
  live : Bool
  takes : List (Option ℕ × ℤ)

structure Book (ω : Type) where
  orders : List (Order ω)
  slips : List Slip
  nextLineId : ℕ

def Slip.taken (s : Slip) (line : ℕ) : ℤ := if s.live then tally s.takes (some line) else 0

/-- The lines that named a deleted order line name none. -/
def Slip.detach (gone : List OrderLine) (s : Slip) : Slip :=
  { s with takes := s.takes.map fun t => (t.1.filter (· ∉ lineIds gone), t.2) }

namespace Book

variable {ω : Type}

def taken (b : Book ω) (line : ℕ) : ℤ := (b.slips.map (·.taken line)).sum

def position (b : Book ω) (lines : List OrderLine) : List OpenLine :=
  lines.map fun line => ⟨line.id, line.quantity, b.taken line.id⟩

def numbered (first : ℕ) (quantities : List ℤ) : List OrderLine :=
  (quantities.zipIdx first).map fun (quantity, id) => ⟨id, quantity⟩

def openOrder (b : Book ω) (status : ω) (quantities : List ℤ) : Book ω :=
  { b with orders := b.orders ++ [⟨status, numbered b.nextLineId quantities⟩]
           nextLineId := b.nextLineId + quantities.length }

/-- The lines of an order deleted and others put in their place. -/
def reline (b : Book ω) (a : ℕ) (gone : List OrderLine) (quantities : List ℤ) : Book ω :=
  { orders := b.orders.modify a fun o => { o with lines := numbered b.nextLineId quantities }
    slips := b.slips.map (·.detach gone)
    nextLineId := b.nextLineId + quantities.length }

def setStatus (b : Book ω) (a : ℕ) (status : ω) : Book ω :=
  { b with orders := b.orders.modify a fun o => { o with status := status } }

def raise (b : Book ω) (s : Slip) : Book ω := { b with slips := b.slips ++ [s] }

def turn (b : Book ω) (i : ℕ) (live : Bool) : Book ω :=
  { b with slips := b.slips.modify i fun s => { s with live := live } }

/-- The status of an order follows what has been taken of its lines. -/
def resettle (statusFor : List OpenLine → ω → ω) (b : Book ω) : Option ℕ → Book ω
  | none => b
  | some a =>
    { b with orders := b.orders.modify a fun o =>
        { o with status := statusFor (b.position o.lines) o.status } }

end Book

/-- A slip takes of the lines of its own order only. -/
def Named {ω : Type} (b : Book ω) (s : Slip) : Prop :=
  ∀ t ∈ s.takes, ∀ line, t.1 = some line →
    ∃ a o, s.order = some a ∧ b.orders[a]? = some o ∧ line ∈ lineIds o.lines

/-- A line of an order is of no other, a slip takes of the lines of its own order only, and never a
negative quantity, and no more is taken of a line than was ordered. -/
structure Sound {ω : Type} (b : Book ω) : Prop where
  numbered : ∀ o ∈ b.orders, ∀ line ∈ o.lines, line.id < b.nextLineId
  apart : ∀ (a a' : ℕ) (o o' : Order ω), b.orders[a]? = some o → b.orders[a']? = some o' →
    ∀ line ∈ o.lines, line.id ∈ lineIds o'.lines → a = a'
  distinct : ∀ o ∈ b.orders, (lineIds o.lines).Nodup
  filled : ∀ o ∈ b.orders, o.lines ≠ [] ∧ ∀ line ∈ o.lines, 0 < line.quantity
  named : ∀ s ∈ b.slips, Named b s
  nonneg : ∀ s ∈ b.slips, ∀ t ∈ s.takes, t.1 ≠ none → 0 ≤ t.2
  within : ∀ o ∈ b.orders, ∀ line ∈ o.lines, b.taken line.id ≤ line.quantity

/-- The takings of one slip, all together, are no more than what is open. -/
def Fits {ω : Type} (b : Book ω) (s : Slip) : Prop :=
  ∀ o ∈ b.orders, ∀ line ∈ o.lines, tally s.takes (some line.id) ≤ line.quantity - b.taken line.id

/-- The status of every order outside `hand` is the one its lines give it. -/
def Settled {ω : Type} (statusFor : List OpenLine → ω → ω) (b : Book ω) (hand : List ℕ) : Prop :=
  ∀ a o, b.orders[a]? = some o → a ∉ hand → statusFor (b.position o.lines) o.status = o.status

section Taken

theorem mem_modify {α : Type*} {l : List α} {i : ℕ} {f : α → α} {x : α} (h : x ∈ l.modify i f) :
    x ∈ l ∨ ∃ y, l[i]? = some y ∧ x = f y := by
  obtain ⟨j, hj⟩ := List.mem_iff_getElem?.mp h
  rw [List.getElem?_modify] at hj
  obtain ⟨y, hy, rfl⟩ := Option.map_eq_some_iff.mp hj
  split
  · rename_i hij
    exact .inr ⟨y, hij ▸ hy, rfl⟩
  · exact .inl (List.mem_of_getElem? hy)

theorem map_modify {α β : Type*} {f : α → α} {g : β → β} {h : α → β} {l : List α} {i : ℕ}
    (hcomm : ∀ x, l[i]? = some x → h (f x) = g (h x)) :
    (l.modify i f).map h = (l.map h).modify i g := by
  apply List.ext_getElem?
  intro j
  rw [List.getElem?_map, List.getElem?_modify, List.getElem?_modify, List.getElem?_map]
  cases hx : l[j]? with
  | none => rfl
  | some x =>
    simp only [Option.map_eq_map, Option.map_some]
    split
    · rename_i hij
      rw [hcomm x (hij ▸ hx)]
    · rfl

theorem get_concat {α : Type*} {l : List α} {x y : α} {i : ℕ} :
    (l ++ [x])[i]? = some y ↔ l[i]? = some y ∨ i = l.length ∧ x = y := by
  rw [List.getElem?_append]
  split
  · rename_i hi
    constructor
    · exact .inl
    · rintro (h | ⟨rfl, -⟩)
      · exact h
      · omega
  · rename_i hi
    rw [List.getElem?_singleton, List.getElem?_eq_none (by omega : l.length ≤ i)]
    constructor
    · intro h
      split at h
      · exact .inr ⟨by omega, Option.some.inj h⟩
      · cases h
    · rintro (h | ⟨rfl, rfl⟩)
      · cases h
      · simp

theorem sum_map_modify {α : Type*} {l : List α} {i : ℕ} {x : α} (f : α → α) (g : α → ℤ)
    (h : l[i]? = some x) : ((l.modify i f).map g).sum = (l.map g).sum - g x + g (f x) := by
  induction l generalizing i with
  | nil => simp at h
  | cons y l ih =>
    cases i with
    | zero =>
      obtain rfl : y = x := by simpa using h
      simp only [List.modify_zero_cons, List.map_cons, List.sum_cons]
      omega
    | succ i =>
      have := ih (i := i) (by simpa using h)
      simp only [List.modify_succ_cons, List.map_cons, List.sum_cons]
      omega

theorem mem_line_ids {lines : List OrderLine} {line : ℕ} :
    line ∈ lineIds lines ↔ ∃ l ∈ lines, l.id = line := List.mem_map

theorem Slip.taken_unnamed {s : Slip} {line : ℕ} (h : ∀ t ∈ s.takes, t.1 ≠ some line) :
    s.taken line = 0 := by
  unfold Slip.taken
  rw [tally_absent h, ite_self]

theorem tally_takes_nonneg {takes : List (Option ℕ × ℤ)} (h : ∀ t ∈ takes, t.1 ≠ none → 0 ≤ t.2)
    (line : ℕ) : 0 ≤ tally takes (some line) := by
  apply List.sum_nonneg
  intro x hx
  obtain ⟨t, ht, rfl⟩ := List.mem_map.mp hx
  obtain ⟨hmem, hline⟩ := List.mem_filter.mp ht
  exact h t hmem (by simp [of_decide_eq_true hline])

theorem Slip.taken_nonneg {s : Slip} (h : ∀ t ∈ s.takes, t.1 ≠ none → 0 ≤ t.2) (line : ℕ) :
    0 ≤ s.taken line := by
  unfold Slip.taken
  split
  · exact tally_takes_nonneg h line
  · exact le_rfl

theorem Slip.taken_detach {s : Slip} {gone : List OrderLine} {line : ℕ}
    (h : line ∉ lineIds gone) : (s.detach gone).taken line = s.taken line := by
  have htally : tally (s.detach gone).takes (some line) = tally s.takes (some line) := by
    unfold Slip.detach
    induction s.takes with
    | nil => rfl
    | cons t takes ih =>
      rw [List.map_cons, tally_cons, tally_cons, ih]
      have hkey : t.1.filter (· ∉ lineIds gone) = some line ↔ t.1 = some line := by
        simp only [Option.filter_eq_some_iff, decide_eq_true_eq]
        exact ⟨fun hk => hk.1, fun hk => ⟨hk, h⟩⟩
      simp only [hkey]
  unfold Slip.taken
  rw [htally]
  rfl

variable {ω : Type} {b : Book ω}

theorem Book.taken_raise (b : Book ω) (s : Slip) (line : ℕ) :
    (b.raise s).taken line = b.taken line + s.taken line := by
  simp [Book.raise, Book.taken]

theorem Book.taken_turn {i : ℕ} {s : Slip} (hs : b.slips[i]? = some s) (live : Bool) (line : ℕ) :
    (b.turn i live).taken line =
      b.taken line - s.taken line + { s with live := live }.taken line :=
  sum_map_modify (fun s : Slip => { s with live := live }) (fun s : Slip => s.taken line) hs

theorem Book.taken_reline {gone : List OrderLine} {line : ℕ} (h : line ∉ lineIds gone) (a : ℕ)
    (quantities : List ℤ) : (b.reline a gone quantities).taken line = b.taken line := by
  simp [Book.reline, Book.taken, Function.comp_def, Slip.taken_detach h]

theorem Book.taken_unnamed {line : ℕ} (h : ∀ s ∈ b.slips, ∀ t ∈ s.takes, t.1 ≠ some line) :
    b.taken line = 0 := by
  apply List.sum_eq_zero
  intro x hx
  obtain ⟨s, hs, rfl⟩ := List.mem_map.mp hx
  exact Slip.taken_unnamed (h s hs)

theorem mem_numbered {first : ℕ} {quantities : List ℤ} {line : OrderLine}
    (h : line ∈ Book.numbered first quantities) :
    first ≤ line.id ∧ line.id < first + quantities.length ∧ line.quantity ∈ quantities := by
  obtain ⟨p, hp, rfl⟩ := List.mem_map.mp h
  refine ⟨List.le_snd_of_mem_zipIdx hp, ?_, List.fst_mem_of_mem_zipIdx hp⟩
  have := List.snd_lt_add_of_mem_zipIdx hp
  omega

theorem numbered_distinct (first : ℕ) (quantities : List ℤ) :
    (lineIds (Book.numbered first quantities)).Nodup := by
  have hids : lineIds (Book.numbered first quantities) = (quantities.zipIdx first).map Prod.snd := by
    unfold lineIds Book.numbered
    rw [List.map_map]
    rfl
  rw [hids, List.zipIdx_map_snd]
  exact List.nodup_range'

end Taken

section Sound

variable {ω : Type} {b : Book ω}

theorem Sound.empty : Sound (⟨[], [], 0⟩ : Book ω) := by
  constructor <;> simp

/-- A line no order has is named by no slip. -/
theorem Sound.unnamed (h : Sound b) {line : ℕ} (hline : ∀ o ∈ b.orders, line ∉ lineIds o.lines) :
    b.taken line = 0 := by
  apply Book.taken_unnamed
  intro s hs t ht hname
  obtain ⟨a, o, _, ho, hmem⟩ := h.named s hs t ht line hname
  exact hline o (List.mem_of_getElem? ho) hmem

theorem Sound.fresh (h : Sound b) {line : ℕ} (hline : b.nextLineId ≤ line) :
    ∀ o ∈ b.orders, line ∉ lineIds o.lines := by
  intro o ho hmem
  obtain ⟨l, hl, rfl⟩ := mem_line_ids.mp hmem
  exact absurd (h.numbered o ho l hl) (by omega)

/-- A slip takes nothing of the lines of an order that is not its own. -/
theorem Sound.elsewhere (h : Sound b) {s : Slip} (hs : Named b s) {a : ℕ} {o : Order ω}
    (ho : b.orders[a]? = some o) (hother : s.order ≠ some a) {line : OrderLine}
    (hline : line ∈ o.lines) : ∀ t ∈ s.takes, t.1 ≠ some line.id := by
  intro t ht hname
  obtain ⟨a', o', horder, ho', hmem⟩ := hs t ht line.id hname
  have := h.apart a a' o o' ho ho' line hline hmem
  exact hother (this ▸ horder)

theorem Sound.turn_elsewhere (h : Sound b) {i : ℕ} {s : Slip} (hs : b.slips[i]? = some s)
    (live : Bool) {a : ℕ} {o : Order ω} (ho : b.orders[a]? = some o) (hother : s.order ≠ some a)
    {line : OrderLine} (hline : line ∈ o.lines) :
    (b.turn i live).taken line.id = b.taken line.id := by
  have hunnamed := h.elsewhere (h.named s (List.mem_of_getElem? hs)) ho hother hline
  rw [Book.taken_turn hs, Slip.taken_unnamed hunnamed,
    Slip.taken_unnamed (s := { s with live := live }) hunnamed]
  omega

theorem Sound.raise_elsewhere (h : Sound b) {s : Slip} (hs : Named b s) {a : ℕ} {o : Order ω}
    (ho : b.orders[a]? = some o) (hother : s.order ≠ some a) {line : OrderLine}
    (hline : line ∈ o.lines) : (b.raise s).taken line.id = b.taken line.id := by
  rw [Book.taken_raise, Slip.taken_unnamed (h.elsewhere hs ho hother hline), add_zero]

theorem position_distinct (h : Sound b) {o : Order ω} (ho : o ∈ b.orders) :
    ((b.position o.lines).map OpenLine.orderLineId).Nodup := by
  have hids : (b.position o.lines).map OpenLine.orderLineId = lineIds o.lines := by
    unfold Book.position lineIds
    rw [List.map_map]
    rfl
  rw [hids]
  exact h.distinct o ho

/-- What fits in the open lines of the slip's own order fits. -/
theorem Sound.fits (h : Sound b) {s : Slip} (hs : Named b s)
    (hown : ∀ a o, s.order = some a → b.orders[a]? = some o → ∀ row ∈ b.position o.lines,
      tally s.takes (some row.orderLineId) ≤ row.openQty) : Fits b s := by
  intro o ho line hline
  have hwithin := h.within o ho line hline
  obtain ⟨a, ha⟩ := List.mem_iff_getElem?.mp ho
  by_cases horder : s.order = some a
  · have := hown a o horder ha _ (List.mem_map_of_mem hline)
    simp only [OpenLine.openQty] at this
    omega
  · rw [tally_absent (h.elsewhere hs ha horder hline)]
    omega

theorem Sound.taken_nonneg (h : Sound b) (line : ℕ) : 0 ≤ b.taken line := by
  apply List.sum_nonneg
  intro x hx
  obtain ⟨s, hs, rfl⟩ := List.mem_map.mp hx
  exact Slip.taken_nonneg (h.nonneg s hs) line

theorem Sound.restatus (h : Sound b) (a : ℕ) (f : Order ω → ω) :
    Sound { b with orders := b.orders.modify a fun o => { o with status := f o } } := by
  have hget : ∀ (a' : ℕ) (o : Order ω),
      (b.orders.modify a fun o => { o with status := f o })[a']? = some o →
      ∃ o', b.orders[a']? = some o' ∧ o.lines = o'.lines := by
    intro a' o ho
    rw [List.getElem?_modify] at ho
    obtain ⟨o', ho', rfl⟩ := Option.map_eq_some_iff.mp ho
    exact ⟨o', ho', by split <;> rfl⟩
  have hmem : ∀ o ∈ b.orders.modify a fun o => { o with status := f o },
      ∃ o' ∈ b.orders, o.lines = o'.lines := by
    intro o ho
    obtain ⟨a', ha'⟩ := List.mem_iff_getElem?.mp ho
    obtain ⟨o', ho', hlines⟩ := hget a' o ha'
    exact ⟨o', List.mem_of_getElem? ho', hlines⟩
  constructor
  · intro o ho line hline
    obtain ⟨o', ho', hlines⟩ := hmem o ho
    exact h.numbered o' ho' line (hlines ▸ hline)
  · intro a₁ a₂ o₁ o₂ ho₁ ho₂ line hline hline'
    obtain ⟨o₁', ho₁', hlines₁⟩ := hget a₁ o₁ ho₁
    obtain ⟨o₂', ho₂', hlines₂⟩ := hget a₂ o₂ ho₂
    exact h.apart a₁ a₂ o₁' o₂' ho₁' ho₂' line (hlines₁ ▸ hline) (hlines₂ ▸ hline')
  · intro o ho
    obtain ⟨o', ho', hlines⟩ := hmem o ho
    exact hlines ▸ h.distinct o' ho'
  · intro o ho
    obtain ⟨o', ho', hlines⟩ := hmem o ho
    exact hlines ▸ h.filled o' ho'
  · intro s hs t ht line hname
    obtain ⟨a', o', horder, ho', hline⟩ := h.named s hs t ht line hname
    refine ⟨a', if a = a' then { o' with status := f o' } else o', horder, ?_, ?_⟩
    · rw [List.getElem?_modify, ho', Option.map_eq_map, Option.map_some]
    · split <;> exact hline
  · exact h.nonneg
  · intro o ho line hline
    obtain ⟨o', ho', hlines⟩ := hmem o ho
    exact h.within o' ho' line (hlines ▸ hline)

theorem Sound.set_status (h : Sound b) (a : ℕ) (status : ω) : Sound (b.setStatus a status) :=
  h.restatus a fun _ => status

theorem Sound.resettle (h : Sound b) (statusFor : List OpenLine → ω → ω) (order : Option ℕ) :
    Sound (b.resettle statusFor order) := by
  cases order with
  | none => exact h
  | some a => exact h.restatus a fun o => statusFor (b.position o.lines) o.status

theorem Sound.open_order (h : Sound b) (status : ω) {quantities : List ℤ} (hne : quantities ≠ [])
    (hpos : ∀ q ∈ quantities, 0 < q) : Sound (b.openOrder status quantities) := by
  have hnew : ∀ line ∈ Book.numbered b.nextLineId quantities,
      ∀ o ∈ b.orders, line.id ∉ lineIds o.lines := by
    intro line hline
    exact h.fresh (mem_numbered hline).1
  have hget : ∀ (a : ℕ) (o : Order ω), (b.openOrder status quantities).orders[a]? = some o →
      b.orders[a]? = some o ∨
        a = b.orders.length ∧ o = ⟨status, Book.numbered b.nextLineId quantities⟩ := by
    intro a o ho
    obtain hold | ⟨hlen, hnew⟩ := get_concat.mp ho
    · exact .inl hold
    · exact .inr ⟨hlen, hnew.symm⟩
  have hmem : ∀ o ∈ (b.openOrder status quantities).orders,
      o ∈ b.orders ∨ o = ⟨status, Book.numbered b.nextLineId quantities⟩ := by
    intro o ho
    simpa [Book.openOrder] using ho
  constructor
  · intro o ho line hline
    obtain ho | rfl := hmem o ho
    · exact Nat.lt_add_right _ (h.numbered o ho line hline)
    · exact (mem_numbered hline).2.1
  · intro a a' o o' ho ho' line hline hline'
    obtain ho | ⟨rfl, rfl⟩ := hget a o ho
    · obtain ho' | ⟨rfl, rfl⟩ := hget a' o' ho'
      · exact h.apart a a' o o' ho ho' line hline hline'
      · obtain ⟨l, hl, hid⟩ := mem_line_ids.mp hline'
        exact absurd (mem_line_ids.mpr ⟨line, hline, hid.symm⟩)
          (hnew l hl o (List.mem_of_getElem? ho))
    · obtain ho' | ⟨rfl, -⟩ := hget a' o' ho'
      · exact absurd hline' (hnew line hline o' (List.mem_of_getElem? ho'))
      · rfl
  · intro o ho
    obtain ho | rfl := hmem o ho
    · exact h.distinct o ho
    · exact numbered_distinct _ _
  · intro o ho
    obtain ho | rfl := hmem o ho
    · exact h.filled o ho
    · refine ⟨?_, fun line hline => hpos _ (mem_numbered hline).2.2⟩
      simpa [Book.numbered] using hne
  · intro s hs t ht line hname
    obtain ⟨a, o, horder, ho, hline⟩ := h.named s hs t ht line hname
    exact ⟨a, o, horder, get_concat.mpr (.inl ho), hline⟩
  · exact h.nonneg
  · intro o ho line hline
    obtain ho | rfl := hmem o ho
    · exact h.within o ho line hline
    · have := h.unnamed (hnew line hline)
      exact this.trans_le (hpos _ (mem_numbered hline).2.2).le

theorem Sound.raise (h : Sound b) {s : Slip} (hnamed : Named b s)
    (hnonneg : ∀ t ∈ s.takes, t.1 ≠ none → 0 ≤ t.2) (hfits : s.live = true → Fits b s) :
    Sound (b.raise s) := by
  have hmem : ∀ s' ∈ (b.raise s).slips, s' ∈ b.slips ∨ s' = s := by
    intro s' hs'
    simpa [Book.raise] using hs'
  refine ⟨h.numbered, h.apart, h.distinct, h.filled, ?_, ?_, ?_⟩
  · intro s' hs'
    obtain hs' | rfl := hmem s' hs'
    · exact h.named s' hs'
    · exact hnamed
  · intro s' hs'
    obtain hs' | rfl := hmem s' hs'
    · exact h.nonneg s' hs'
    · exact hnonneg
  · intro o ho line hline
    have hwithin := h.within o ho line hline
    rw [Book.taken_raise]
    unfold Slip.taken
    split
    · rename_i hlive
      have := hfits hlive o ho line hline
      omega
    · omega

/-- A slip that begins to count must fit in what is open then. -/
theorem Sound.turn (h : Sound b) {i : ℕ} {s : Slip} (hs : b.slips[i]? = some s) {live : Bool}
    (hfits : live = true → s.live = false → Fits b s) : Sound (b.turn i live) := by
  have hmem : ∀ s' ∈ (b.turn i live).slips, ∃ s₀ ∈ b.slips, s'.order = s₀.order ∧
      s'.takes = s₀.takes := by
    intro s' hs'
    obtain hs' | ⟨s₀, hs₀, rfl⟩ := mem_modify hs'
    · exact ⟨s', hs', rfl, rfl⟩
    · exact ⟨s₀, List.mem_of_getElem? hs₀, rfl, rfl⟩
  refine ⟨h.numbered, h.apart, h.distinct, h.filled, ?_, ?_, ?_⟩
  · intro s' hs'
    obtain ⟨s₀, hs₀, horder, htakes⟩ := hmem s' hs'
    unfold Named
    rw [horder, htakes]
    exact h.named s₀ hs₀
  · intro s' hs'
    obtain ⟨s₀, hs₀, -, htakes⟩ := hmem s' hs'
    rw [htakes]
    exact h.nonneg s₀ hs₀
  · intro o ho line hline
    have hwithin := h.within o ho line hline
    have hown := tally_takes_nonneg (h.nonneg s (List.mem_of_getElem? hs)) line.id
    rw [Book.taken_turn hs]
    cases live with
    | false => cases hl : s.live <;> simp [Slip.taken, hl] <;> omega
    | true =>
      cases hl : s.live with
      | true => simpa [Slip.taken, hl] using hwithin
      | false =>
        have := hfits rfl hl o ho line hline
        simp only [Slip.taken, hl, Bool.false_eq_true, ↓reduceIte]
        omega

theorem Sound.reline (h : Sound b) {a : ℕ} {o : Order ω} (ho : b.orders[a]? = some o)
    {quantities : List ℤ} (hne : quantities ≠ []) (hpos : ∀ q ∈ quantities, 0 < q) :
    Sound (b.reline a o.lines quantities) := by
  have hget : ∀ (a' : ℕ) (o' : Order ω), (b.reline a o.lines quantities).orders[a']? = some o' →
      a' ≠ a ∧ b.orders[a']? = some o' ∨
        a' = a ∧ o'.lines = Book.numbered b.nextLineId quantities := by
    intro a' o' ho'
    by_cases haa : a' = a
    · subst haa
      refine .inr ⟨rfl, ?_⟩
      simp only [Book.reline, List.getElem?_modify_eq, ho, Option.map_eq_map, Option.map_some,
        Option.some.injEq] at ho'
      rw [← ho']
    · refine .inl ⟨haa, ?_⟩
      simpa [Book.reline, List.getElem?_modify_ne _ _ (Ne.symm haa)] using ho'
  have hgone : ∀ (a' : ℕ) (o' : Order ω), a' ≠ a → b.orders[a']? = some o' →
      ∀ line ∈ o'.lines, line.id ∉ lineIds o.lines := by
    intro a' o' haa ho' line hline hmem
    exact haa (h.apart a' a o' o ho' ho line hline hmem)
  have hfresh : ∀ line ∈ Book.numbered b.nextLineId quantities, line.id ∉ lineIds o.lines := by
    intro line hline
    exact h.fresh (mem_numbered hline).1 o (List.mem_of_getElem? ho)
  have hmem : ∀ o' ∈ (b.reline a o.lines quantities).orders,
      (∃ a', a' ≠ a ∧ b.orders[a']? = some o') ∨
        o'.lines = Book.numbered b.nextLineId quantities := by
    intro o' ho'
    obtain ⟨a', ha'⟩ := List.mem_iff_getElem?.mp ho'
    obtain ⟨haa, hold⟩ | ⟨-, hnew⟩ := hget a' o' ha'
    · exact .inl ⟨a', haa, hold⟩
    · exact .inr hnew
  have hslip : ∀ s ∈ (b.reline a o.lines quantities).slips,
      ∃ s₀ ∈ b.slips, s = s₀.detach o.lines := by
    intro s hs
    obtain ⟨s₀, hs₀, rfl⟩ := List.mem_map.mp hs
    exact ⟨s₀, hs₀, rfl⟩
  constructor
  · intro o' ho' line hline
    obtain ⟨a', -, hold⟩ | hnew := hmem o' ho'
    · exact Nat.lt_add_right _ (h.numbered o' (List.mem_of_getElem? hold) line hline)
    · rw [hnew] at hline
      exact (mem_numbered hline).2.1
  · intro a₁ a₂ o₁ o₂ ho₁ ho₂ line hline hline'
    obtain ⟨hne₁, hold₁⟩ | ⟨rfl, hnew₁⟩ := hget a₁ o₁ ho₁
    · obtain ⟨-, hold₂⟩ | ⟨rfl, hnew₂⟩ := hget a₂ o₂ ho₂
      · exact h.apart a₁ a₂ o₁ o₂ hold₁ hold₂ line hline hline'
      · rw [hnew₂] at hline'
        obtain ⟨l, hl, hid⟩ := mem_line_ids.mp hline'
        exact absurd (mem_line_ids.mpr ⟨line, hline, hid.symm⟩)
          (h.fresh (mem_numbered hl).1 o₁ (List.mem_of_getElem? hold₁))
    · obtain ⟨-, hold₂⟩ | ⟨rfl, -⟩ := hget a₂ o₂ ho₂
      · rw [hnew₁] at hline
        exact absurd hline' (h.fresh (mem_numbered hline).1 o₂ (List.mem_of_getElem? hold₂))
      · rfl
  · intro o' ho'
    obtain ⟨a', -, hold⟩ | hnew := hmem o' ho'
    · exact h.distinct o' (List.mem_of_getElem? hold)
    · rw [hnew]
      exact numbered_distinct _ _
  · intro o' ho'
    obtain ⟨a', -, hold⟩ | hnew := hmem o' ho'
    · exact h.filled o' (List.mem_of_getElem? hold)
    · rw [hnew]
      refine ⟨?_, fun line hline => hpos _ (mem_numbered hline).2.2⟩
      simpa [Book.numbered] using hne
  · intro s hs t ht line hname
    obtain ⟨s₀, hs₀, rfl⟩ := hslip s hs
    obtain ⟨t₀, ht₀, rfl⟩ := List.mem_map.mp ht
    obtain ⟨hline, hkept⟩ := Option.filter_eq_some_iff.mp hname
    obtain ⟨a', o', horder, ho', hmem'⟩ := h.named s₀ hs₀ t₀ ht₀ line hline
    have haa : a' ≠ a := by
      rintro rfl
      rw [ho] at ho'
      obtain rfl := Option.some.inj ho'
      exact absurd hmem' (by simpa using hkept)
    refine ⟨a', o', horder, ?_, hmem'⟩
    simpa [Book.reline, List.getElem?_modify_ne _ _ (Ne.symm haa)] using ho'
  · intro s hs t ht hname
    obtain ⟨s₀, hs₀, rfl⟩ := hslip s hs
    obtain ⟨t₀, ht₀, rfl⟩ := List.mem_map.mp ht
    apply h.nonneg s₀ hs₀ t₀ ht₀
    intro hnone
    simp [hnone] at hname
  · intro o' ho' line hline
    obtain ⟨a', haa, hold⟩ | hnew := hmem o' ho'
    · rw [Book.taken_reline (hgone a' o' haa hold line hline)]
      exact h.within o' (List.mem_of_getElem? hold) line hline
    · rw [hnew] at hline
      rw [Book.taken_reline (hfresh line hline), h.unnamed (h.fresh (mem_numbered hline).1)]
      exact (hpos _ (mem_numbered hline).2.2).le

end Sound

section Settled

variable {ω : Type} {statusFor : List OpenLine → ω → ω} {b b' : Book ω} {hand : List ℕ}

/-- Lines that were ordered and of which nothing has been taken. -/
def Untouched (lines : List OpenLine) : Prop :=
  lines ≠ [] ∧ ∀ line ∈ lines, 0 < line.orderedQty ∧ line.takenQty = 0

theorem Untouched.not_full {lines : List OpenLine} (h : Untouched lines) :
    ¬ lines.all (·.openQty = 0) := by
  intro hall
  obtain ⟨line, hline⟩ := List.exists_mem_of_ne_nil lines h.1
  have hopen : line.openQty = 0 := by simpa using List.all_eq_true.mp hall line hline
  have := h.2 line hline
  simp only [OpenLine.openQty] at hopen
  omega

theorem Untouched.not_begun {lines : List OpenLine} (h : Untouched lines) :
    ¬ lines.any (0 < ·.takenQty) := by
  intro hany
  obtain ⟨line, hline, hpos⟩ := List.any_eq_true.mp hany
  simp [(h.2 line hline).2] at hpos

/-- A status once derived stays as it is, and of untouched lines only that they are untouched
counts. -/
structure Derives (statusFor : List OpenLine → ω → ω) : Prop where
  again : ∀ lines status, statusFor lines (statusFor lines status) = statusFor lines status
  untouched : ∀ lines lines' status, Untouched lines → Untouched lines' →
    statusFor lines status = statusFor lines' status

theorem position_congr {lines : List OrderLine}
    (h : ∀ line ∈ lines, b'.taken line.id = b.taken line.id) :
    b'.position lines = b.position lines := by
  apply List.map_congr_left
  intro line hline
  rw [h line hline]

theorem Sound.untouched (h : Sound b) {o : Order ω} (ho : o ∈ b.orders)
    (hnone : ∀ line ∈ o.lines, b.taken line.id = 0) : Untouched (b.position o.lines) := by
  obtain ⟨hne, hpos⟩ := h.filled o ho
  refine ⟨by simpa [Book.position] using hne, ?_⟩
  intro line hline
  obtain ⟨l, hl, rfl⟩ := List.mem_map.mp hline
  exact ⟨hpos l hl, hnone l hl⟩

theorem Settled.congr (h : Settled statusFor b hand) (horders : b'.orders = b.orders)
    (hsame : ∀ o ∈ b.orders, ∀ line ∈ o.lines, b'.taken line.id = b.taken line.id) :
    Settled statusFor b' hand := by
  intro a o ho hhand
  rw [horders] at ho
  rw [position_congr (hsame o (List.mem_of_getElem? ho))]
  exact h a o ho hhand

theorem Settled.open_order (h : Settled statusFor b hand) {status : ω}
    (hstart : ∀ lines, statusFor lines status = status) (quantities : List ℤ) :
    Settled statusFor (b.openOrder status quantities) hand := by
  intro a o ho hhand
  obtain hold | ⟨-, rfl⟩ := get_concat.mp ho
  · exact h a o hold hhand
  · exact hstart _

theorem Settled.set_status (h : Settled statusFor b hand) (a : ℕ) (status : ω) :
    Settled statusFor (b.setStatus a status) (a :: hand) := by
  intro a' o ho hhand
  obtain ⟨haa, hhand⟩ : a' ≠ a ∧ a' ∉ hand := by simpa using hhand
  simp only [Book.setStatus, List.getElem?_modify_ne _ _ (Ne.symm haa)] at ho
  exact h a' o ho hhand

/-- A status given by hand that is the derived one all the same. -/
theorem Settled.set_derived (h : Settled statusFor b hand) {a : ℕ} {status : ω}
    (hstatus : ∀ o, b.orders[a]? = some o → statusFor (b.position o.lines) status = status) :
    Settled statusFor (b.setStatus a status) (hand.filter (· ≠ a)) := by
  intro a' o ho hhand
  by_cases haa : a' = a
  · subst haa
    simp only [Book.setStatus, List.getElem?_modify_eq] at ho
    obtain ⟨o', ho', rfl⟩ := Option.map_eq_some_iff.mp ho
    exact hstatus o' ho'
  · simp only [Book.setStatus, List.getElem?_modify_ne _ _ (Ne.symm haa)] at ho
    exact h a' o ho fun hmem => hhand (List.mem_filter.mpr ⟨hmem, by simpa using haa⟩)

/-- The lines put in the place of untouched ones are untouched. -/
theorem Sound.relined_untouched (h : Sound b) {a : ℕ} {o : Order ω} (ho : b.orders[a]? = some o)
    {quantities : List ℤ} (hne : quantities ≠ []) (hpos : ∀ q ∈ quantities, 0 < q)
    {o' : Order ω} (ho' : (b.reline a o.lines quantities).orders[a]? = some o') :
    o' = { o with lines := Book.numbered b.nextLineId quantities } ∧
      Untouched ((b.reline a o.lines quantities).position o'.lines) := by
  have hlines : o' = { o with lines := Book.numbered b.nextLineId quantities } := by
    simpa [Book.reline, ho] using ho'.symm
  refine ⟨hlines, (h.reline ho hne hpos).untouched (List.mem_of_getElem? ho') ?_⟩
  intro line hline
  rw [hlines] at hline
  have hfresh := h.fresh (mem_numbered hline).1
  rw [Book.taken_reline (hfresh o (List.mem_of_getElem? ho)), h.unnamed hfresh]

theorem Settled.reline (h : Settled statusFor b hand) (hlaw : Derives statusFor) (hb : Sound b)
    {a : ℕ} {o : Order ω} (ho : b.orders[a]? = some o)
    (hnone : ∀ line ∈ o.lines, b.taken line.id = 0) {quantities : List ℤ} (hne : quantities ≠ [])
    (hpos : ∀ q ∈ quantities, 0 < q) :
    Settled statusFor (b.reline a o.lines quantities) hand := by
  intro a' o' ho' hhand
  by_cases haa : a' = a
  · subst haa
    obtain ⟨hlines, huntouched⟩ := hb.relined_untouched ho hne hpos ho'
    rw [hlaw.untouched _ _ _ huntouched (hb.untouched (List.mem_of_getElem? ho) hnone), hlines]
    exact h a' o ho hhand
  · have hold : b.orders[a']? = some o' := by
      simpa [Book.reline, List.getElem?_modify_ne _ _ (Ne.symm haa)] using ho'
    have hsame : ∀ line ∈ o'.lines,
        (b.reline a o.lines quantities).taken line.id = b.taken line.id := by
      intro line hline
      apply Book.taken_reline
      intro hmem
      exact haa (hb.apart a' a o' o hold ho line hline hmem)
    rw [position_congr hsame]
    exact h a' o' hold hhand

/-- What is taken changes for one order alone, whose status is then derived again. -/
theorem Settled.resettle (h : Settled statusFor b hand) (hlaw : Derives statusFor)
    (horders : b'.orders = b.orders) {order : Option ℕ}
    (hsame : ∀ (a : ℕ) (o : Order ω), b.orders[a]? = some o → order ≠ some a →
      ∀ line ∈ o.lines, b'.taken line.id = b.taken line.id) :
    Settled statusFor (b'.resettle statusFor order) (hand.filter (some · ≠ order)) := by
  intro a o ho hhand
  by_cases horder : order = some a
  · subst horder
    simp only [Book.resettle, List.getElem?_modify_eq] at ho
    obtain ⟨o', -, rfl⟩ := Option.map_eq_some_iff.mp ho
    exact hlaw.again (b'.position o'.lines) o'.status
  · have hold : b.orders[a]? = some o := by
      rw [← horders]
      cases order with
      | none => exact ho
      | some a' =>
        have haa : a' ≠ a := fun he => horder (congrArg some he)
        simpa [Book.resettle, List.getElem?_modify_ne _ _ haa] using ho
    have hfree : a ∉ hand := by
      intro hmem
      exact hhand (List.mem_filter.mpr ⟨hmem, by simpa using Ne.symm horder⟩)
    have hpos : (b'.resettle statusFor order).position o.lines = b'.position o.lines := by
      cases order <;> rfl
    rw [hpos, position_congr (hsame a o hold horder)]
    exact h a o hold hfree

/-- An order's lines left as they were, or others put in the place of lines nothing was taken of:
a status its lines bore out before they bear out after. -/
theorem amend_keeps (hlaw : Derives statusFor) (h : Sound b) (hset : Settled statusFor b hand)
    {a : ℕ} {o : Order ω} (ho : b.orders[a]? = some o) {amended : Book ω}
    (hamended : amended = b ∨ ∃ quantities, quantities ≠ [] ∧ (∀ q ∈ quantities, 0 < q) ∧
      (∀ line ∈ o.lines, b.taken line.id = 0) ∧ amended = b.reline a o.lines quantities) :
    Sound amended ∧ Settled statusFor amended hand ∧
      ∀ status, statusFor (b.position o.lines) status = status →
        ∀ o', amended.orders[a]? = some o' →
          statusFor (amended.position o'.lines) status = status := by
  obtain rfl | ⟨quantities, hne, hpos, hnone, rfl⟩ := hamended
  · refine ⟨h, hset, ?_⟩
    intro status hstatus o' ho'
    obtain rfl := Option.some.inj (ho'.symm.trans ho)
    exact hstatus
  · refine ⟨h.reline ho hne hpos, hset.reline hlaw h ho hnone hne hpos, ?_⟩
    intro status hstatus o' ho'
    obtain ⟨-, huntouched⟩ := h.relined_untouched ho hne hpos ho'
    rw [hlaw.untouched _ _ _ huntouched (h.untouched (List.mem_of_getElem? ho) hnone)]
    exact hstatus

theorem Settled.turn (h : Settled statusFor b hand) (hlaw : Derives statusFor) (hb : Sound b)
    {i : ℕ} {s : Slip} (hs : b.slips[i]? = some s) (live : Bool) :
    Settled statusFor ((b.turn i live).resettle statusFor s.order)
      (hand.filter (some · ≠ s.order)) := by
  apply h.resettle hlaw
  · rfl
  · intro a o ho hother line hline
    exact hb.turn_elsewhere hs live ho hother hline

theorem Settled.raise (h : Settled statusFor b hand) (hlaw : Derives statusFor) (hb : Sound b)
    {s : Slip} (hs : Named b s) :
    Settled statusFor ((b.raise s).resettle statusFor s.order)
      (hand.filter (some · ≠ s.order)) := by
  apply h.resettle hlaw
  · rfl
  · intro a o ho hother line hline
    exact hb.raise_elsewhere hs ho hother hline

end Settled

end Caflow.Drawdown
