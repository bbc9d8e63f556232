import Caflow.Lib.Tally

namespace Caflow.FifoLayers
open Tally

variable {γ δ K : Type*} [CommRing K]

def total (layers : List (γ × K)) : K := (layers.map Prod.snd).sum

@[simp] theorem total_nil : total ([] : List (γ × K)) = 0 := rfl

@[simp] theorem total_cons (l : γ × K) (layers : List (γ × K)) :
    total (l :: layers) = l.2 + total layers := rfl

variable [LinearOrder K]

/-- What an issue leaves of the layers, oldest first. -/
def consume : K → List (γ × K) → List (γ × K)
  | _, [] => []
  | n, (c, q) :: layers => if q ≤ n then consume (n - q) layers else (c, q - n) :: layers

/-- Movement by movement: a receipt is a new layer behind the others, an issue consumes. -/
def walk : List (γ × K) → List (γ × K) → List (γ × K)
  | layers, [] => layers
  | layers, (c, q) :: moves =>
    walk (if 0 < q then layers ++ [(c, q)] else consume (-q) layers) moves

/-- The receipts of some movements, and how much they issue in all. -/
def receipts (moves : List (γ × K)) : List (γ × K) := moves.filter (0 < ·.2)

def issued (moves : List (γ × K)) : K := -total (moves.filter (·.2 < 0))

def Positive (layers : List (γ × K)) : Prop := ∀ l ∈ layers, 0 < l.2

theorem Positive.filter {layers : List (γ × K)} (h : Positive layers) (p : γ × K → Bool) :
    Positive (layers.filter p) := fun l hl => h l (List.mem_of_mem_filter hl)

theorem consume_labels (n : K) (layers : List (γ × K)) :
    ((consume n layers).map Prod.fst).Sublist (layers.map Prod.fst) := by
  induction layers generalizing n with
  | nil => exact .slnil
  | cons l layers ih =>
    unfold consume
    split
    · exact (ih _).cons l.1
    · exact List.Sublist.refl _

variable [IsStrictOrderedRing K]

theorem Positive.total {layers : List (γ × K)} (h : Positive layers) : 0 ≤ total layers := by
  apply List.sum_nonneg
  intro x hx
  obtain ⟨l, hl, rfl⟩ := List.mem_map.mp hx
  exact (h l hl).le

section
variable [LinearOrder γ] {layers layers' : List (γ × K)}

/-- The layers stand in the order of their dates. -/
def InOrder (layers : List (γ × K)) : Prop := (layers.map Prod.fst).Pairwise (· ≤ ·)

omit [IsStrictOrderedRing K] in
theorem InOrder.consume (h : InOrder layers) (n : K) : InOrder (consume n layers) :=
  h.sublist (consume_labels n layers)

end

end Caflow.FifoLayers
