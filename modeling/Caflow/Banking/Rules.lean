import Caflow.Text
import Caflow.Lib.SortByKey

namespace Caflow.Banking.Rules

/-- A row of the client's rules, as it is stored. -/
structure Rule where
  id : Option String
  ruleName : Option String
  isActive : Option Bool
  priority : Option ℤ
  createdAt : Option String
  descriptionPattern : Option String
  descriptionPatterns : List (Option String)
  matchField : Option String
  matchOperator : Option String
  amountMinPaise : Option ℤ
  amountMaxPaise : Option ℤ
  txnType : Option String
  suggestedCategory : Option String
  suggestedAccountId : Option String
  suggestedNarration : Option String
  suggestedGstRateBps : Option ℤ
  suggestedIsInterstate : Option Bool
  payeeType : Option String
  payeeId : Option String
  flagsTdsDecision : Option Bool

/-- The transaction a rule is read against. -/
structure Transaction where
  narration : Option String
  amountPaise : ℤ
  isDebit : Bool
  referenceNo : Option String
  payeeName : Option String

structure RuleSuggestion where
  ruleId : Option String
  ruleName : Option String
  category : Option String
  accountId : Option String
  narration : Option String
  gstRateBps : Option ℤ
  isInterstate : Bool
  payeeType : Option String
  payeeId : Option String
  flagsTdsDecision : Bool

/-- The rate, the party and the flag are no proposal of their own. -/
def RuleSuggestion.isEmpty (s : RuleSuggestion) : Bool :=
  s.category.isNone && s.accountId.isNone && s.narration.isNone

inductive MatchOperator where
  | contains
  | startsWith
  | equals

/-- What a text is not is read as containing. -/
def matchOperator (text : String) : MatchOperator :=
  if text = "starts_with" then .startsWith else if text = "equals" then .equals else .contains

/-- The texts of the transaction a pattern is read against. -/
def matchFields (field : String) : List (Transaction → Option String) :=
  if field = "reference_no" then [Transaction.referenceNo]
  else if field = "payee_name" then [Transaction.payeeName]
  else if field = "any" then [Transaction.narration, Transaction.referenceNo, Transaction.payeeName]
  else [Transaction.narration]

def compares (operator : MatchOperator) (haystack needle : String) : Bool :=
  match operator with
  | .startsWith => needle.toList.isPrefixOf haystack.toList
  | .equals => haystack = needle
  | .contains => needle.toList <:+: haystack.toList

/-- A blank text is none. -/
def given (text : Option String) : Option String := text.filter (· ≠ "")

section
variable (lower : String → String)

def folded (text : Option String) : String := lower (Text.strip (text.getD ""))

/-- The first pattern and its alternatives, less the blank ones. -/
def Rule.patterns (r : Rule) : List String :=
  ((r.descriptionPattern :: r.descriptionPatterns).map (folded lower)).filter (· ≠ "")

def Rule.field (r : Rule) : String := lower (Text.strip ((given r.matchField).getD "description"))

def Rule.operator (r : Rule) : String := lower (Text.strip ((given r.matchOperator).getD "contains"))

/-- A rule with no pattern takes every text. -/
def textMatches (r : Rule) (t : Transaction) : Bool :=
  if r.patterns lower = [] then true
  else
    let haystacks := (matchFields (r.field lower)).map fun text => folded lower (text t)
    haystacks.any fun h => h ≠ "" &&
      (r.patterns lower).any fun p => compares (matchOperator (r.operator lower)) h p

def ruleMatches (r : Rule) (t : Transaction) : Bool :=
  let txnType := lower (Text.strip ((given r.txnType).getD "any"))
  r.isActive.getD true && textMatches lower r t &&
    !r.amountMinPaise.any (t.amountPaise < ·) && !r.amountMaxPaise.any (· < t.amountPaise) &&
    !(txnType = "debit" && !t.isDebit) && !(txnType = "credit" && t.isDebit)

end

/-- Priority first, then the time of creation, then the id. -/
abbrev Rule.key (r : Rule) : ℤ ×ₗ String ×ₗ String :=
  toLex (r.priority.getD 100, toLex (r.createdAt.getD "", r.id.getD ""))

def byPrecedence (rules : List Rule) : List Rule := rules.insertionSort fun a b => a.key ≤ b.key

/-- The suggestion as the code fills it in: it says nothing of the flag, which stays at its
default. -/
def Rule.suggestion (r : Rule) : RuleSuggestion where
  ruleId := r.id
  ruleName := r.ruleName
  category := given r.suggestedCategory
  accountId := given r.suggestedAccountId
  narration := given r.suggestedNarration
  gstRateBps := r.suggestedGstRateBps
  isInterstate := r.suggestedIsInterstate.getD false
  payeeType := given r.payeeType
  payeeId := given r.payeeId
  flagsTdsDecision := false

def matchRule (lower : String → String) (t : Transaction) (rules : List Rule) :
    Option RuleSuggestion :=
  (byPrecedence rules).findSome? fun rule =>
    if ruleMatches lower rule t then
      if rule.suggestion.isEmpty then none else some rule.suggestion
    else none

section
variable (lower : String → String) (t : Transaction)

/-- An active rule that matches the transaction and names a category, an account or a narration. -/
def Rule.Proposes (r : Rule) : Prop :=
  ruleMatches lower r t ∧ (given r.suggestedCategory ≠ none ∨ given r.suggestedAccountId ≠ none ∨
    given r.suggestedNarration ≠ none)

/-- The rule that comes before every other one that proposes something. -/
structure First (rules : List Rule) (r : Rule) : Prop where
  mem : r ∈ rules
  proposes : r.Proposes lower t
  least : ∀ other ∈ rules, other.Proposes lower t → r.key ≤ other.key

/-- All that the rule stores. -/
def Rule.payload (r : Rule) : RuleSuggestion :=
  { r.suggestion with flagsTdsDecision := r.flagsTdsDecision.getD false }

/-- In whatever order the rules stand the first one is answered in full, and one of lower
precedence beside them changes nothing. -/
structure Resolves (rules : List Rule) : Prop where
  answered : ∀ rules', rules'.Perm rules → ∀ r, First lower t rules r →
    matchRule lower t rules' = some r.payload
  unanswered : ∀ rules', rules'.Perm rules → (∀ r ∈ rules, ¬ r.Proposes lower t) →
    matchRule lower t rules' = none
  undisturbed : ∀ r, First lower t rules r → ∀ added : Rule, r.key < added.key →
    ∀ rules', rules'.Perm (added :: rules) → matchRule lower t rules' = matchRule lower t rules

end

section
variable {lower : String → String} {t : Transaction}

theorem proposes_iff (r : Rule) :
    r.Proposes lower t ↔ (ruleMatches lower r t && !r.suggestion.isEmpty) = true := by
  unfold Rule.Proposes RuleSuggestion.isEmpty Rule.suggestion
  simp only [Bool.and_eq_true, Bool.not_eq_true', Bool.and_eq_false_iff,
    Option.isNone_eq_false_iff, Option.isSome_iff_ne_none, or_assoc]

theorem match_rule_eq (rules : List Rule) :
    matchRule lower t rules = ((byPrecedence rules).find? fun r =>
      ruleMatches lower r t && !r.suggestion.isEmpty).map Rule.suggestion := by
  unfold matchRule
  induction byPrecedence rules with
  | nil => rfl
  | cons r rules ih =>
    rw [List.findSome?_cons, List.find?_cons]
    cases hmatches : ruleMatches lower r t with
    | false => simpa using ih
    | true =>
      cases hempty : r.suggestion.isEmpty with
      | true => simpa using ih
      | false => simp

theorem mem_by_precedence {rules : List Rule} : r ∈ byPrecedence rules ↔ r ∈ rules :=
  (List.perm_insertionSort _ rules).mem_iff

/-- The rule that answers is the first one that proposes something. -/
theorem match_rule_some (h : matchRule lower t rules = some s) :
    ∃ r, First lower t rules r ∧ s = r.suggestion := by
  rw [match_rule_eq] at h
  obtain ⟨r, hfound, rfl⟩ := Option.map_eq_some_iff.mp h
  obtain ⟨hmem, hproposes, hleast⟩ := SortByKey.found_least hfound
  exact ⟨r, ⟨hmem, (proposes_iff r).mpr hproposes,
    fun other hother hp => hleast other hother ((proposes_iff other).mp hp)⟩, rfl⟩

theorem match_rule_none (h : matchRule lower t rules = none) :
    ∀ r ∈ rules, ¬ r.Proposes lower t := by
  rw [match_rule_eq, Option.map_eq_none_iff, List.find?_eq_none] at h
  intro r hr hp
  exact h r (mem_by_precedence.mpr hr) ((proposes_iff r).mp hp)

/-- No two of the rules have one id. -/
def Distinct (rules : List Rule) : Prop := (rules.map fun r => r.id.getD "").Nodup

theorem same_key {rules : List Rule} (h : Distinct rules) (hr : r ∈ rules) (hr' : r' ∈ rules)
    (hkey : r.key = r'.key) : r = r' := by
  refine List.inj_on_of_nodup_map h hr hr' ?_
  exact congrArg (fun k : ℤ ×ₗ String ×ₗ String => (ofLex (ofLex k).2).2) hkey

theorem First.unique {rules : List Rule} (h : Distinct rules) (hr : First lower t rules r)
    (hr' : First lower t rules r') : r = r' :=
  same_key h hr.mem hr'.mem (le_antisymm (hr.least r' hr'.mem hr'.proposes)
    (hr'.least r hr.mem hr.proposes))

theorem First.perm (h : First lower t rules r) (hperm : rules'.Perm rules) :
    First lower t rules' r :=
  ⟨hperm.mem_iff.mpr h.mem, h.proposes,
    fun other hother => h.least other (hperm.mem_iff.mp hother)⟩

/-- The first rule answers, with what the code copies of it. -/
theorem First.answers (hdistinct : Distinct rules) (h : First lower t rules r) :
    matchRule lower t rules = some r.suggestion := by
  cases hanswer : matchRule lower t rules with
  | none => exact absurd h.proposes (match_rule_none hanswer r h.mem)
  | some s =>
    obtain ⟨r', hr', rfl⟩ := match_rule_some hanswer
    rw [First.unique hdistinct h hr']

theorem distinct_one (r : Rule) : Distinct [r] := List.nodup_singleton _

theorem Distinct.perm (h : Distinct rules) (hperm : rules'.Perm rules) : Distinct rules' :=
  (hperm.map _).nodup_iff.mpr h

/-- One more rule, behind the first one, leaves it the first. -/
theorem First.stays {added : Rule} (h : First lower t rules r) (hbelow : r.key < added.key) :
    First lower t (added :: rules) r := by
  refine ⟨List.mem_cons_of_mem _ h.mem, h.proposes, fun other hother hproposes => ?_⟩
  rcases List.mem_cons.mp hother with rfl | hother
  · exact hbelow.le
  · exact h.least other hother hproposes

/-- The one that answers beside an added rule is the first rule still, also where the added one has
an id that is there already. -/
theorem First.undisturbed {added : Rule} (hdistinct : Distinct rules) (h : First lower t rules r)
    (hbelow : r.key < added.key) (hperm : rules'.Perm (added :: rules)) :
    matchRule lower t rules' = some r.suggestion := by
  have hfirst : First lower t rules' r := (h.stays hbelow).perm hperm
  cases hanswer : matchRule lower t rules' with
  | none => exact absurd h.proposes (match_rule_none hanswer r hfirst.mem)
  | some s =>
    obtain ⟨r', hr', rfl⟩ := match_rule_some hanswer
    have hkey : r.key = r'.key := le_antisymm (hfirst.least r' hr'.mem hr'.proposes)
      (hr'.least r hfirst.mem hfirst.proposes)
    rcases List.mem_cons.mp (hperm.mem_iff.mp hr'.mem) with rfl | hmem
    · exact absurd hkey hbelow.ne
    · rw [same_key hdistinct h.mem hmem hkey]

/-- An answer in full is one whose flag is down, for the code fills in no other. -/
theorem Resolves.unflagged (hdistinct : Distinct rules) (h : Resolves lower t rules) :
    ∀ r, First lower t rules r → r.flagsTdsDecision.getD false = false := by
  intro r hr
  have hanswer := h.answered rules (List.Perm.refl rules) r hr
  rw [hr.answers hdistinct] at hanswer
  exact (congrArg RuleSuggestion.flagsTdsDecision (Option.some.inj hanswer)).symm

/-- The rules resolve as they should where the first one does not ask for a TDS decision. -/
theorem resolves_iff_unflagged (hdistinct : Distinct rules) :
    Resolves lower t rules ↔
      ∀ r, First lower t rules r → r.flagsTdsDecision.getD false = false := by
  constructor
  · exact Resolves.unflagged hdistinct
  · intro h
    have hpayload : ∀ r, First lower t rules r → r.payload = r.suggestion := by
      intro r hr
      unfold Rule.payload
      rw [h r hr]
      rfl
    constructor
    · intro rules' hperm r hr
      rw [hpayload r hr, (hr.perm hperm).answers (hdistinct.perm hperm)]
    · intro rules' hperm hnone
      cases hanswer : matchRule lower t rules' with
      | none => rfl
      | some s =>
        obtain ⟨r, hr, -⟩ := match_rule_some hanswer
        exact absurd hr.proposes (hnone r (hperm.mem_iff.mp hr.mem))
    · intro r hr added hbelow rules' hperm
      rw [hr.undisturbed hdistinct hbelow hperm, hr.answers hdistinct]

end

/-- A rule that sends a contractor's payments to an account and asks for a TDS decision. -/
def contractor : Rule where
  id := "r1"
  ruleName := "Contractor"
  isActive := true
  priority := some 100
  createdAt := "2026-04-01"
  descriptionPattern := "acme"
  descriptionPatterns := []
  matchField := "description"
  matchOperator := "contains"
  amountMinPaise := none
  amountMaxPaise := none
  txnType := "debit"
  suggestedCategory := "Expense"
  suggestedAccountId := "a1"
  suggestedNarration := none
  suggestedGstRateBps := none
  suggestedIsInterstate := false
  payeeType := none
  payeeId := none
  flagsTdsDecision := true

def payment : Transaction := ⟨"NEFT Acme Works", 5000000, true, none, none⟩

theorem contractor_first : First Text.lower payment [contractor] contractor where
  mem := List.mem_singleton_self _
  proposes := ⟨by decide +kernel, .inl (by decide)⟩
  least other hother _ := by rw [List.mem_singleton.mp hother]

theorem contractor_unresolved : ¬ Resolves Text.lower payment [contractor] := by
  intro h
  have hflag := h.unflagged (distinct_one _) contractor contractor_first
  exact absurd hflag (by decide)

theorem unflagged_resolves :
    Resolves Text.lower payment [{ contractor with flagsTdsDecision := false }] := by
  refine (resolves_iff_unflagged (distinct_one _)).mpr fun r hr => ?_
  rw [List.mem_singleton.mp hr.mem]
  rfl

end Caflow.Banking.Rules
