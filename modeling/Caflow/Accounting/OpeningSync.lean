import Caflow.Accounting.OpeningBalance

namespace Caflow.Accounting.OpeningBalance
open Kernel Tally

/-- What the opening family carries on an account. -/
def openingNet (entries : List Kernel.Entry) (account : String) : ℤ :=
  tally ((openingLines entries).map lineAmount) account

/-- The net of the opening family over all accounts. -/
def openingTotal (entries : List Kernel.Entry) : ℤ :=
  (((openingLines entries).map lineAmount).map Prod.snd).sum

def carried (account : Except Failure String) (paise : ℤ) (onAccount : String) : ℤ :=
  if account.toOption = some onAccount then paise else 0

/-- What the masters say an account opens with. -/
def masterTarget (client : Client) (masters : Masters) (account : String) : ℤ :=
  carried (receivable client) (sumOpening masters.customers) account +
    carried (payable client) (-(sumOpening masters.vendors)) account +
    (masters.banks.map fun b =>
      if b.coaAccountId.or (genericBank client).toOption = some account then
        b.openingBalancePaise else 0).sum

/-- Every read of a sync is answered with all its rows. -/
structure WholeReads (masters : Masters) (entries : List Kernel.Entry) : Prop where
  customers : masters.customers.length ≤ rowCap
  vendors : masters.vendors.length ≤ rowCap
  banks : masters.banks.length ≤ rowCap
  family : (entries.filter Entry.isOpening).length ≤ rowCap
  familyLines : (openingLines entries).length ≤ rowCap

/-- A sync that reads everything, whose contra is no leg's account and whose reference is new. -/
structure SyncCall.Kept (call : SyncCall) (client : Client) (books : Books) : Prop where
  whole : WholeReads books.masters books.entries
  apart : ∀ obe, openingEquity client = .ok obe →
    legOf (legAccounts client books.masters.banks) obe = none
  fresh : ∀ e ∈ books.entries,
    ¬ e.LiveAt call.reference (call.date client books.masters books.entries)

theorem fetch_whole (h : WholeReads masters entries) : fetchMasters masters = masters := by
  unfold fetchMasters
  rw [unpaged_whole h.customers, unpaged_whole h.vendors, unpaged_whole h.banks]

theorem current_whole (h : WholeReads masters entries) :
    currentOpening entries = (openingLines entries).map lineAmount := by
  unfold currentOpening
  rw [unpaged_whole h.family]
  exact congrArg (List.map lineAmount) (unpaged_whole h.familyLines)

theorem target_on_ok (h : targetOn account paise = .ok pairs) (id : String) :
    tally pairs id = carried account paise id := by
  unfold targetOn at h
  split at h
  · rename_i hzero
    cases h
    subst hzero
    exact (ite_self 0).symm
  · cases account with
    | error e => cases h
    | ok own =>
      cases h
      rw [tally_cons, tally_nil, add_zero]
      change _ = if some own = some id then paise else 0
      simp only [Option.some.injEq]

/-- The banks of a ledger of their own and the others come to what every bank says. -/
theorem tally_banks (client : Client) (banks : List BankMaster) (account : String) :
    tally ((banks.filter fun b => b.openingBalancePaise ≠ 0).filterMap
        fun b => b.coaAccountId.map (·, b.openingBalancePaise)) account +
      carried (genericBank client) (((banks.filter fun b => b.openingBalancePaise ≠ 0).filter
        fun b => b.coaAccountId = none).map BankMaster.openingBalancePaise).sum account =
      (banks.map fun b => if b.coaAccountId.or (genericBank client).toOption = some account then
        b.openingBalancePaise else 0).sum := by
  induction banks with
  | nil => exact (zero_add _).trans (ite_self 0)
  | cons b banks ih =>
    rw [List.map_cons, List.sum_cons, ← ih]
    by_cases hzero : b.openingBalancePaise = 0
    · rw [List.filter_cons_of_neg (by simpa using hzero), hzero, ite_self, zero_add]
    · rw [List.filter_cons_of_pos (by simpa using hzero)]
      cases hcoa : b.coaAccountId with
      | some coa =>
        rw [List.filterMap_cons_some (b := (coa, b.openingBalancePaise)) (by rw [hcoa]; rfl),
          tally_cons, List.filter_cons_of_neg (by simp [hcoa]), add_assoc]
        simp only [Option.some_or, Option.some.injEq]
      | none =>
        rw [List.filterMap_cons_none (by rw [hcoa]; rfl), List.filter_cons_of_pos (by simp [hcoa]),
          List.map_cons, List.sum_cons, Option.none_or]
        unfold carried
        split
        · omega
        · rw [zero_add]

theorem targets_ok {client : Client} {masters : Masters} (h : nonObe client masters = .ok targets)
    (account : String) : tally targets account = masterTarget client masters account := by
  unfold nonObe at h
  cases har : targetOn (receivable client) (sumOpening masters.customers) with
  | error e => rw [har] at h; cases h
  | ok ar =>
    cases hap : targetOn (payable client) (-(sumOpening masters.vendors)) with
    | error e => rw [har, hap] at h; cases h
    | ok ap =>
      rw [har, hap] at h
      dsimp only [bind, Except.bind, pure, Except.pure] at h
      split at h
      · cases h
      · rename_i bank hbank
        cases h
        rw [tally_append, tally_append, tally_append, target_on_ok har, target_on_ok hap,
          target_on_ok hbank]
        unfold masterTarget
        rw [← tally_banks, add_assoc (_ + _)]

theorem sorted_accounts_nodup (pairs : List (String × ℤ)) : (sortedAccounts pairs).Nodup := by
  unfold sortedAccounts
  rw [(List.perm_insertionSort _ _).nodup_iff]
  exact List.nodup_dedup _

theorem mem_sorted_accounts {pairs : List (String × ℤ)} :
    account ∈ sortedAccounts pairs ↔ ∃ p ∈ pairs, p.1 = account := by
  unfold sortedAccounts
  rw [(List.perm_insertionSort _ _).mem_iff, List.mem_dedup, List.mem_map]

theorem tally_unlisted {ps qs : List (String × ℤ)} (h : account ∉ sortedAccounts (ps ++ qs)) :
    tally ps account = 0 ∧ tally qs account = 0 := by
  rw [mem_sorted_accounts] at h
  push Not at h
  exact ⟨tally_absent fun p hp => h p (List.mem_append_left _ hp),
    tally_absent fun p hp => h p (List.mem_append_right _ hp)⟩

theorem delta_line_cases (account : String) (d : ℤ) :
    (d = 0 ∧ deltaLine account d = none) ∨
      ∃ l, deltaLine account d = some l ∧ lineAmount l = (account, d) := by
  unfold deltaLine
  split_ifs with hpos hneg
  · exact .inr ⟨_, rfl, by simp [lineAmount]⟩
  · exact .inr ⟨_, rfl, by simp [lineAmount]⟩
  · exact .inl ⟨by omega, rfl⟩

/-- The lines of some deltas put each delta on its account, and nothing elsewhere. -/
theorem tally_delta_lines {accounts : List String} (hnodup : accounts.Nodup) (delta : String → ℤ)
    (account : String) :
    tally ((deltaLines accounts delta).map lineAmount) account =
      if account ∈ accounts then delta account else 0 := by
  induction accounts with
  | nil => rfl
  | cons a accounts ih =>
    obtain ⟨hfirst, hrest⟩ := List.nodup_cons.mp hnodup
    have hsplit : tally ((deltaLines (a :: accounts) delta).map lineAmount) account =
        (if a = account then delta a else 0) +
          tally ((deltaLines accounts delta).map lineAmount) account := by
      unfold deltaLines
      rcases delta_line_cases a (delta a) with ⟨hzero, hnone⟩ | ⟨l, hsome, hamount⟩
      · rw [List.filterMap_cons_none (by exact hnone), hzero, ite_self, zero_add]
      · rw [List.filterMap_cons_some (b := l) (by exact hsome), List.map_cons, tally_cons, hamount]
    rw [hsplit, ih hrest]
    by_cases h : a = account
    · subst h
      rw [if_pos rfl, if_neg hfirst, if_pos List.mem_cons_self, add_zero]
    · rw [if_neg h, zero_add]
      simp only [List.mem_cons, Ne.symm h, false_or]

theorem delta_lines_nil {accounts : List String} {delta : String → ℤ}
    (h : ∀ account ∈ accounts, delta account = 0) : deltaLines accounts delta = [] := by
  unfold deltaLines
  rw [List.filterMap_eq_nil_iff]
  intro account hmem
  rw [h account hmem]
  rfl

theorem contra_elsewhere (h : contraOf client targets = .ok contra)
    (hother : openingEquity client ≠ .ok account) : tally contra account = 0 := by
  unfold contraOf at h
  split at h
  · cases h
    rfl
  · cases hobe : openingEquity client with
    | error e => rw [hobe] at h; cases h
    | ok obe =>
      rw [hobe] at h hother
      cases h
      refine tally_absent fun p hp => ?_
      rw [List.mem_singleton.mp hp]
      exact fun hsame => hother (congrArg Except.ok hsame)

theorem plan_unscoped_eq (client : Client) (targets current : List (String × ℤ)) :
    planUnscoped client targets current =
      (contraOf client targets).map fun contra =>
        deltaLines (sortedAccounts (targets ++ contra ++ current))
          fun account => tally (targets ++ contra) account - tally current account := by
  unfold planUnscoped
  cases contraOf client targets with
  | error e => rfl
  | ok contra => rfl

/-- A whole position's lines bring each account from what it carries to its target. -/
theorem tally_unscoped (targets current : List (String × ℤ)) (account : String) :
    tally ((deltaLines (sortedAccounts (targets ++ current))
        fun a => tally targets a - tally current a).map lineAmount) account =
      tally targets account - tally current account := by
  rw [tally_delta_lines (sorted_accounts_nodup _)]
  split
  · rfl
  · rename_i hout
    obtain ⟨htargets, hcurrent⟩ := tally_unlisted hout
    rw [htargets, hcurrent, sub_zero]

/-- A leg's sync puts lines on its own accounts, and on the contra. -/
theorem tally_scoped {client : Client} {legs : List (String × Leg)} {scope : List Leg}
    (h : planScoped client targets current legs scope = .ok lines)
    (hscope : ∀ leg ∈ scope, legOf legs account ≠ some leg)
    (hobe : openingEquity client ≠ .ok account) :
    tally (lines.map lineAmount) account = 0 := by
  unfold planScoped at h
  dsimp only [bind, Except.bind, pure, Except.pure] at h
  set accounts := (sortedAccounts (targets ++ current)).filter
    fun a => (legOf legs a).any (· ∈ scope) with haccounts
  have hout : account ∉ accounts := by
    rw [haccounts, List.mem_filter]
    rintro ⟨-, hany⟩
    cases hleg : legOf legs account with
    | none => rw [hleg] at hany; cases hany
    | some leg =>
      rw [hleg] at hany
      exact hscope leg (of_decide_eq_true hany) hleg
  have hnodup : accounts.Nodup := (sorted_accounts_nodup _).filter _
  have hzero : ∀ delta, tally ((deltaLines accounts delta).map lineAmount) account = 0 := by
    intro delta
    rw [tally_delta_lines hnodup, if_neg hout]
  split at h
  · cases h
    exact hzero _
  · split at h
    · cases h
    · rename_i obe hfound
      cases h
      rw [List.map_append, tally_append, hzero, zero_add]
      refine tally_absent fun p hp => ?_
      rw [List.mem_singleton.mp hp]
      rintro rfl
      exact hobe hfound

theorem stamp_none (entries : List Kernel.Entry) : entries.map (stamp none) = entries :=
  List.map_id'' (fun _ => if_neg (Option.some_ne_none _).symm) entries

theorem opening_net_append (entries : List Kernel.Entry) (posting : Posting) (id : String)
    (hopening : posting.sourceType = some openingSource) (account : String) :
    openingNet (entries ++ [posting.entry id none]) account =
      openingNet entries account + tally (posting.lines.map lineAmount) account := by
  unfold openingNet openingLines
  have hnew : [posting.entry id none].filter Entry.isOpening = [posting.entry id none] :=
    List.filter_eq_self.mpr fun e he => by
      rw [List.mem_singleton.mp he]
      exact decide_eq_true hopening
  rw [List.filter_append, hnew, List.flatMap_append, List.map_append, tally_append,
    List.flatMap_singleton]
  rfl

theorem opening_total_zero (h : Balanced entries) : openingTotal entries = 0 := by
  have hlines : ∀ lines : List JournalLine,
      ((lines.map lineAmount).map Prod.snd).sum = totalDebit lines - totalCredit lines := by
    intro lines
    unfold totalDebit totalCredit
    induction lines with
    | nil => rfl
    | cons l lines ih =>
      simp only [List.map_cons, List.sum_cons, ih]
      unfold lineAmount
      omega
  unfold openingTotal openingLines
  rw [hlines]
  induction entries with
  | nil => rfl
  | cons e entries ih =>
    obtain ⟨hfirst, hrest⟩ := List.forall_mem_cons.mp h
    have ih := ih hrest
    rw [List.filter_cons]
    split
    · unfold totalDebit totalCredit at ih hfirst ⊢
      rw [List.flatMap_cons, List.map_append, List.map_append, List.sum_append, List.sum_append]
      omega
    · exact ih

/-- What a sync that answers did: it planned some lines, and posted them unless there were none. -/
theorem sync_ok (h : (postOpeningBalances ground client masters entries call).1 = .ok summary) :
    client.validatePostingDate (call.date client masters entries) = none ∧
    ∃ lines figures, planOpening client (fetchMasters masters) entries call.scope =
        .ok (lines, figures) ∧
      ((lines = [] ∧ (postOpeningBalances ground client masters entries call).2 = entries) ∨
        ∃ id, (Kernel.createJournal ground call.link entries
            (call.posting (call.date client masters entries) lines) none).1 = .ok id ∧
          (postOpeningBalances ground client masters entries call).2 =
            (Kernel.createJournal ground call.link entries
              (call.posting (call.date client masters entries) lines) none).2) := by
  unfold postOpeningBalances at h ⊢
  dsimp only at h ⊢
  cases hdate : client.validatePostingDate (call.date client masters entries) with
  | some refused => rw [hdate] at h; cases h
  | none =>
    rw [hdate] at h
    dsimp only at h ⊢
    refine ⟨rfl, ?_⟩
    cases hplan : planOpening client (fetchMasters masters) entries call.scope with
    | error raised => rw [hplan] at h; cases h
    | ok planned =>
      obtain ⟨lines, figures⟩ := planned
      rw [hplan] at h
      refine ⟨lines, figures, rfl, ?_⟩
      cases lines with
      | nil => exact .inl ⟨rfl, rfl⟩
      | cons l lines =>
        dsimp only at h ⊢
        right
        cases hpost : (Kernel.createJournal ground call.link entries
            (call.posting (call.date client masters entries) (l :: lines)) none).1 with
        | error raised => rw [hpost] at h; cases h
        | ok id => exact ⟨id, rfl, rfl⟩

/-- A sync under a new reference moves the family by its lines. -/
theorem sync_moves {masters : Masters} {entries : List Kernel.Entry}
    (hfresh : ∀ e ∈ entries, ¬ e.LiveAt call.reference (call.date client masters entries))
    (h : (postOpeningBalances ground client masters entries call).1 = .ok summary) :
    ∃ lines figures, planOpening client (fetchMasters masters) entries call.scope =
        .ok (lines, figures) ∧
      ∀ account, openingNet (postOpeningBalances ground client masters entries call).2 account =
        openingNet entries account + tally (lines.map lineAmount) account := by
  obtain ⟨-, lines, figures, hplan, hposted⟩ := sync_ok h
  refine ⟨lines, figures, hplan, fun account => ?_⟩
  rcases hposted with ⟨rfl, hkeep⟩ | ⟨id, hok, hnext⟩
  · rw [hkeep]
    exact (add_zero _).symm
  · obtain ⟨-, -, hadd⟩ := create_journal_fresh hfresh hok
    rw [hnext, hadd, stamp_none, opening_net_append _ _ _ rfl]
    rfl

theorem plan_whole {client : Client} {masters : Masters} {planned : Figures}
    (h : planOpening client masters entries none = .ok (lines, planned)) :
    ∃ targets contra, nonObe client masters = .ok targets ∧ contraOf client targets = .ok contra ∧
      lines = deltaLines (sortedAccounts (targets ++ contra ++ currentOpening entries))
        fun a => tally (targets ++ contra) a - tally (currentOpening entries) a := by
  unfold planOpening at h
  dsimp only [bind, Except.bind, pure, Except.pure] at h
  cases htargets : nonObe client masters with
  | error e => rw [htargets] at h; cases h
  | ok targets =>
    rw [htargets] at h
    dsimp only at h
    rw [plan_unscoped_eq] at h
    cases hcontra : contraOf client targets with
    | error e => rw [hcontra] at h; cases h
    | ok contra =>
      rw [hcontra] at h
      cases h
      exact ⟨targets, contra, rfl, hcontra, rfl⟩

/-- A whole sync brings every leg's account to the masters. -/
theorem unscoped_sync {books : Books} (hkept : call.Kept client books) (hscope : call.scope = none)
    (h : (postOpeningBalances ground client books.masters books.entries call).1 = .ok summary) :
    ∃ targets contra, nonObe client books.masters = .ok targets ∧
      contraOf client targets = .ok contra ∧
      ∀ account,
        openingNet (postOpeningBalances ground client books.masters books.entries call).2 account =
          tally (targets ++ contra) account := by
  obtain ⟨lines, figures, hplan, hmoves⟩ := sync_moves hkept.fresh h
  rw [hscope, fetch_whole hkept.whole] at hplan
  obtain ⟨targets, contra, htargets, hcontra, rfl⟩ := plan_whole hplan
  refine ⟨targets, contra, htargets, hcontra, fun account => ?_⟩
  rw [hmoves, tally_unscoped, current_whole hkept.whole]
  unfold openingNet
  omega

/-- What is at its targets plans nothing. -/
theorem settled_plan {client : Client} {masters : Masters} {entries : List Kernel.Entry}
    (hwhole : WholeReads masters entries) (htargets : nonObe client masters = .ok targets)
    (hcontra : contraOf client targets = .ok contra)
    (hnet : ∀ account, openingNet entries account = tally (targets ++ contra) account) :
    planOpening client (fetchMasters masters) entries none = .ok ([], figures masters) := by
  rw [fetch_whole hwhole]
  unfold planOpening
  rw [htargets]
  dsimp only [bind, Except.bind, pure, Except.pure]
  rw [plan_unscoped_eq, hcontra]
  dsimp only [Except.map]
  rw [delta_lines_nil]
  intro account _
  rw [current_whole hwhole, ← hnet account]
  exact sub_self _

theorem settled_sync {client : Client} {masters : Masters} {entries : List Kernel.Entry}
    {planned : Figures}
    (hplan : planOpening client (fetchMasters masters) entries call.scope = .ok ([], planned)) :
    (postOpeningBalances ground client masters entries call).2 = entries ∧
      ∀ summary, (postOpeningBalances ground client masters entries call).1 = .ok summary →
        summary.posted = none := by
  unfold postOpeningBalances
  dsimp only
  rw [hplan]
  split
  · exact ⟨rfl, fun _ h => nomatch h⟩
  · exact ⟨rfl, fun _ h => (congrArg Summary.posted (Except.ok.inj h)).symm⟩

theorem sync_balanced (ground : Ground) (client : Client) (masters : Masters) (call : SyncCall)
    (h : Balanced entries) :
    Balanced (postOpeningBalances ground client masters entries call).2 := by
  unfold postOpeningBalances
  dsimp only
  split
  · exact h
  · split
    · exact h
    · exact h
    · exact create_journal_balanced h

theorem run_balanced (ground : Ground) (client : Client) (events : List Event) {books : Books}
    (h : Balanced books.entries) : Balanced (run ground client books events).entries := by
  induction events generalizing books with
  | nil => exact h
  | cons event events ih =>
    apply ih
    cases event with
    | edit masters => exact h
    | sync call => exact sync_balanced ground client books.masters call h

/-- A leg's sync moves its own accounts and the contra only. -/
theorem scoped_sync {client : Client} {masters : Masters} {entries : List Kernel.Entry}
    {scope : List Leg} (hwhole : WholeReads masters entries)
    (hfresh : ∀ e ∈ entries, ¬ e.LiveAt call.reference (call.date client masters entries))
    (hscope : call.scope = some scope)
    (h : (postOpeningBalances ground client masters entries call).1 = .ok summary)
    (hown : ∀ leg ∈ scope, legOf (legAccounts client masters.banks) account ≠ some leg)
    (hobe : openingEquity client ≠ .ok account) :
    openingNet (postOpeningBalances ground client masters entries call).2 account =
      openingNet entries account := by
  obtain ⟨lines, figures, hplan, hmoves⟩ := sync_moves hfresh h
  rw [hscope, fetch_whole hwhole] at hplan
  unfold planOpening at hplan
  dsimp only [bind, Except.bind, pure, Except.pure] at hplan
  cases htargets : nonObe client masters with
  | error e => rw [htargets] at hplan; cases hplan
  | ok targets =>
    rw [htargets] at hplan
    dsimp only at hplan
    split at hplan
    · cases hplan
    · rename_i lines' hlines
      cases hplan
      rw [hmoves, tally_scoped hlines hown hobe, add_zero]

/-- In every state that edits and syncs lead to, all entries balance and the opening family nets to
nothing; a whole sync that answers brings each leg's account to its masters and leaves the next one
nothing to post; and a leg's sync moves its own accounts and the contra only. -/
theorem opening_sync_converges (ground : Ground) (client : Client) (books : Books)
    (events : List Event) (hstart : Balanced books.entries) :
    let s := run ground client books events
    (Balanced s.entries ∧ openingTotal s.entries = 0) ∧
      ∀ call summary, call.Kept client s →
        let next := postOpeningBalances ground client s.masters s.entries call
        next.1 = .ok summary →
        (call.scope = none →
          (∀ account leg, legOf (legAccounts client s.masters.banks) account = some leg →
            openingNet next.2 account = masterTarget client s.masters account) ∧
          ∀ again : SyncCall, again.scope = none → WholeReads s.masters next.2 →
            (postOpeningBalances ground client s.masters next.2 again).2 = next.2 ∧
            ∀ summary', (postOpeningBalances ground client s.masters next.2 again).1 =
              .ok summary' → summary'.posted = none) ∧
        ∀ scope, call.scope = some scope → ∀ account,
          openingNet next.2 account ≠ openingNet s.entries account →
          (∃ leg ∈ scope, legOf (legAccounts client s.masters.banks) account = some leg) ∨
            openingEquity client = .ok account := by
  intro s
  have hbalanced : Balanced s.entries := run_balanced ground client events hstart
  refine ⟨⟨hbalanced, opening_total_zero hbalanced⟩, ?_⟩
  intro call summary hkept next hok
  refine ⟨fun hscope => ?_, fun scope hscope account hmoved => ?_⟩
  · obtain ⟨targets, contra, htargets, hcontra, hnet⟩ := unscoped_sync hkept hscope hok
    refine ⟨fun account leg hleg => ?_, fun again hagain hwhole => ?_⟩
    · have hother : openingEquity client ≠ .ok account := by
        intro hobe
        rw [hkept.apart account hobe] at hleg
        cases hleg
      rw [hnet, tally_append, contra_elsewhere hcontra hother, add_zero]
      exact targets_ok htargets account
    · apply settled_sync
      rw [hagain]
      exact settled_plan hwhole htargets hcontra hnet
  · by_contra hnone
    push Not at hnone
    exact hmoved (scoped_sync hkept.whole hkept.fresh hscope hok hnone.1 hnone.2)

def ground : Ground := .plain

def client : Client where
  clientId := "client"
  chart := [⟨"1200", none, "Trade Receivables", some "ar", true⟩,
    ⟨"2100", none, "Trade Payables", some "ap", true⟩, ⟨"1101", none, "Bank", some "bank", true⟩,
    ⟨"3004", none, "Opening Balance Equity", none, true⟩]
  financialYearStart := some "2026-04-01"
  validatePostingDate := fun _ => none
  today := (2026, 6)

def SyncCall.of (scope : Option (List Leg)) (suffix : String) : SyncCall :=
  ⟨some "2026-04-01", scope, suffix, .sound⟩

def masters : Masters :=
  ⟨[⟨118000, none⟩, ⟨-3000, none⟩], [⟨40000, none⟩], [⟨250000, none, some "1102"⟩]⟩

theorem contra_of_client : openingEquity client = .ok "3004" := by
  unfold openingEquity findAccount
  have hname : client.chart.find? (fun row =>
      (row.clientId = some client.clientId ∨ row.clientId = none) ∧
        nameContains row.accountName "Opening Balance Equity" ∧ row.isActive) =
      some ⟨"3004", none, "Opening Balance Equity", none, true⟩ := by decide +kernel
  dsimp only [Option.bind_none, Option.none_or]
  rw [hname]

/-- A bank is saved, and then the whole position is brought in. -/
theorem opening_synced :
    let s := run ground client ⟨masters, []⟩ [.sync (.of (some [.bank]) "0A1B2C3D")]
    let next := postOpeningBalances ground client s.masters s.entries (.of none "4E5F6071")
    openingTotal s.entries = 0 ∧ openingNet next.2 "1200" = 115000 ∧
      openingNet next.2 "2100" = -40000 ∧ openingNet next.2 "1102" = 250000 := by
  intro s next
  have hbalanced : Balanced [] := fun e he => absurd he List.not_mem_nil
  have hkept : (SyncCall.of none "4E5F6071").Kept client s := {
    whole := {
      customers := by decide +kernel
      vendors := by decide +kernel
      banks := by decide +kernel
      family := by decide +kernel
      familyLines := by decide +kernel }
    apart := by
      intro obe hobe
      obtain rfl := Except.ok.inj (contra_of_client.symm.trans hobe)
      decide +kernel
    fresh := by decide +kernel }
  have hanswered : next.1.toOption.isSome = true := by decide +kernel
  obtain ⟨⟨-, htotal⟩, hsync⟩ := opening_sync_converges ground client ⟨masters, []⟩
    [.sync (.of (some [.bank]) "0A1B2C3D")] hbalanced
  cases hok : next.1 with
  | error e => rw [hok] at hanswered; cases hanswered
  | ok summary =>
    obtain ⟨hwhole, -⟩ := (hsync _ summary hkept hok).1 rfl
    refine ⟨htotal, (hwhole "1200" .ar ?_).trans ?_, (hwhole "2100" .ap ?_).trans ?_,
      (hwhole "1102" .bank ?_).trans ?_⟩ <;> decide +kernel

/-- One customer more than a read is answered with, each opening with a rupee. -/
def manyCustomers : Masters := ⟨List.replicate (rowCap + 1) ⟨100, none⟩, [], []⟩

theorem sum_replicate_opening (n : ℕ) : sumOpening (List.replicate n ⟨100, none⟩) = n * 100 := by
  unfold sumOpening
  rw [List.map_replicate, List.sum_replicate, nsmul_eq_mul]

theorem many_fetched : fetchMasters manyCustomers = ⟨List.replicate rowCap ⟨100, none⟩, [], []⟩ := by
  unfold fetchMasters unpaged manyCustomers
  rw [List.take_replicate, Nat.min_eq_left (Nat.le_succ rowCap)]
  rfl

/-- A plan asks the customers for their sum only. -/
theorem plan_of_sum {client : Client} {customers customers' : List PartyMaster}
    (h : sumOpening customers = sumOpening customers') (entries : List Kernel.Entry)
    (scope : Option (List Leg)) :
    planOpening client ⟨customers, [], []⟩ entries scope =
      planOpening client ⟨customers', [], []⟩ entries scope := by
  unfold planOpening nonObe figures
  dsimp only
  rw [h]

theorem opening_cut_short :
    let next := postOpeningBalances ground client manyCustomers [] (.of none "0A1B2C3D")
    (next.1.toOption.bind Summary.posted).isSome = true ∧ openingNet next.2 "1200" = 100000 ∧
      masterTarget client manyCustomers "1200" = 100100 := by
  have hsum : sumOpening (List.replicate rowCap ⟨100, none⟩) = sumOpening [⟨100000, none⟩] :=
    sum_replicate_opening rowCap
  have hplan : ∀ scope, planOpening client (fetchMasters manyCustomers) [] scope =
      planOpening client ⟨[⟨100000, none⟩], [], []⟩ [] scope := by
    intro scope
    rw [many_fetched]
    exact plan_of_sum hsum [] scope
  have hnext : postOpeningBalances ground client manyCustomers [] (.of none "0A1B2C3D") =
      postOpeningBalances ground client ⟨[⟨100000, none⟩], [], []⟩ [] (.of none "0A1B2C3D") := by
    have hdate : ∀ m, (SyncCall.of none "0A1B2C3D").date client m [] = "2026-04-01" :=
      fun _ => rfl
    have hfew : fetchMasters ⟨[⟨100000, none⟩], [], []⟩ = ⟨[⟨100000, none⟩], [], []⟩ := rfl
    unfold postOpeningBalances
    dsimp only
    rw [hdate, hdate, hplan, hfew]
  refine ⟨?_, ?_, ?_⟩
  · rw [hnext]
    decide +kernel
  · rw [hnext]
    decide +kernel
  · unfold masterTarget manyCustomers
    rw [sum_replicate_opening]
    decide +kernel

end Caflow.Accounting.OpeningBalance
