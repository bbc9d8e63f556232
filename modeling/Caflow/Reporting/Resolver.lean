import Caflow.Accounting.Journal
import Caflow.Reporting.Model

set_option linter.all false

namespace Caflow.Reporting

/-- What an account is looked up for. -/
inductive Kind where
  | ar | ap | advanceCustomer | advanceVendor | cogs

def Kind.key : Kind → String
  | .ar => "ar"
  | .ap => "ap"
  | .advanceCustomer => "advance_customer"
  | .advanceVendor => "advance_vendor"
  | .cogs => "cogs"

def namePatterns : Kind → List String
  | .ar => ["trade receivable", "accounts receivable", "sundry debtor"]
  | .ap => ["trade payable", "accounts payable", "sundry creditor"]
  | .advanceCustomer => ["advance from customer", "customer advance", "advance received"]
  | .advanceVendor => ["advance to vendor", "vendor advance", "advance paid"]
  | .cogs => ["cost of goods sold"]

namespace Chart

/-- The accounts with the key, or where none has it those with a name of the kind. -/
def byKeyOrName (chart : Chart) (kind : Kind) : List String :=
  let ids := (chart.values.filter fun a => a.systemKey = some kind.key).map Account.id
  if ids ≠ [] then ids
  else (chart.values.filter fun a =>
    (namePatterns kind).any (Accounting.nameContains a.name)).map Account.id

/-- The account of a kind with the lowest code, then the lowest id. -/
def first (chart : Chart) (kind : Kind) : Option String :=
  let candidates := (chart.byKeyOrName kind).filterMap chart.get
  ((candidates.insertionSort fun a b => a.code < b.code ∨ (a.code = b.code ∧ a.id ≤ b.id)).head?).map
    Account.id

def isAr (chart : Chart) (accountId : String) : Prop := accountId ∈ chart.byKeyOrName .ar

def isAp (chart : Chart) (accountId : String) : Prop := accountId ∈ chart.byKeyOrName .ap

def isCogs (chart : Chart) (accountId : String) : Prop := accountId ∈ chart.byKeyOrName .cogs

instance (chart : Chart) (accountId : String) : Decidable (chart.isAr accountId) :=
  inferInstanceAs (Decidable (_ ∈ _))

instance (chart : Chart) (accountId : String) : Decidable (chart.isAp accountId) :=
  inferInstanceAs (Decidable (_ ∈ _))

instance (chart : Chart) (accountId : String) : Decidable (chart.isCogs accountId) :=
  inferInstanceAs (Decidable (_ ∈ _))

/-- The account for a customer's money that no invoice takes; a chart without one gets its own. -/
def advanceCustomer (chart : Chart) : String :=
  (given (chart.first .advanceCustomer)).getD "__advance_customers__"

def advanceVendor (chart : Chart) : String :=
  (given (chart.first .advanceVendor)).getD "__advance_to_vendors__"

/-- A receivable or a payable account. -/
def isControl (chart : Chart) (accountId : String) : Prop :=
  chart.isAr accountId ∨ chart.isAp accountId

instance (chart : Chart) (accountId : String) : Decidable (chart.isControl accountId) :=
  inferInstanceAs (Decidable (_ ∨ _))

end Chart

end Caflow.Reporting
