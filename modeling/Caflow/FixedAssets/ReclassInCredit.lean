import Caflow.FixedAssets.AmortisationReclass

namespace Caflow.FixedAssets.AmortisationReclass
open Calendar Coverage Tally

variable {saysRupees : ℤ → String} {saysDate : Day → String}

/-- What a plan made from a position is like: an asset that is not moved gives nothing up, and one that
is moved, or has nothing to move, is credited with its register figure. -/
structure Planned (plan : AssetPlan) : Prop where
  shared : 0 ≤ plan.fromSharedToAsAtPaise
  carried : 0 ≤ plan.fromCarriedPaise
  later : ∀ p ∈ plan.later, 0 < p.2
  still : plan.outcome ≠ .moves →
    plan.fromSharedToAsAtPaise = 0 ∧ plan.fromCarriedPaise = 0 ∧ plan.later = []
  whole : plan.outcome ≠ .excluded → plan.creditToOwnLedgerPaise = plan.registerPaise

theorem planned (saysRupees : ℤ → String) (pos : AssetPosition) :
    Planned (planAsset saysRupees pos) := by
  unfold planAsset
  dsimp only
  split_ifs with hback hnone hover
  · exact ⟨le_rfl, le_rfl, by simp, by simp, by simp⟩
  · exact ⟨le_rfl, le_rfl, by simp, by simp, fun _ => rfl⟩
  · exact ⟨le_rfl, le_rfl, by simp, by simp, by simp⟩
  · simp only [not_or, not_lt, not_exists, not_and] at hback
    obtain ⟨-, hposted, hlater⟩ := hback
    refine ⟨hposted, not_lt.mp hover, fun p hp => ?_, by simp, fun _ => ?_⟩
    · obtain ⟨hmem, hne⟩ := List.mem_filter.mp hp
      have hpos := hlater p hmem
      have hne : p.2 ≠ 0 := by simpa using hne
      omega
    · have hkept : ((pos.postedLater.filter (·.2 ≠ 0)).map Prod.snd).sum =
          (pos.postedLater.map Prod.snd).sum := by
        rw [sum_filter (fun p : Day × ℤ => p.2 ≠ 0)]
        refine congrArg List.sum (List.map_congr_left fun p _ => ?_)
        by_cases hp : p.2 = 0 <;> simp [hp]
      simp only [AssetPlan.creditToOwnLedgerPaise, AssetPlan.fromSharedAfterAsAtPaise, hkept]
      omega

theorem taken_append (source : Source) (entries entries' : List Tranche) :
    takenFrom source (entries ++ entries') = takenFrom source entries ++ takenFrom source entries' :=
  List.flatMap_append

theorem taken_later (source : Source) (later : List (Day × ℤ)) :
    takenFrom source (later.map fun p => (⟨p.1, [(.shared, p.2)]⟩ : Tranche)) =
      if source = .shared then later else [] := by
  induction later with
  | nil => cases source <;> rfl
  | cons p later ih =>
    have hcons : takenFrom source ((p :: later).map fun p => (⟨p.1, [(.shared, p.2)]⟩ : Tranche)) =
        takenFrom source [⟨p.1, [(.shared, p.2)]⟩] ++
          takenFrom source (later.map fun p => (⟨p.1, [(.shared, p.2)]⟩ : Tranche)) :=
      taken_append source [_] _
    rw [hcons, ih]
    cases source <;> simp [takenFrom]

/-- What one asset's move takes out of the shared ledger. -/
def sharedPart (asAt : Day) (carriedIsShared : Bool) (plan : AssetPlan) : List (Day × ℤ) :=
  let first := plan.fromSharedToAsAtPaise + if carriedIsShared then plan.fromCarriedPaise else 0
  (if first ≠ 0 then [(asAt, first)] else []) ++ plan.later

/-- What one asset's move takes out of the ledger named for its carried-over part. -/
def carriedPart (asAt : Day) (carriedIsShared : Bool) (plan : AssetPlan) : List (Day × ℤ) :=
  if carriedIsShared = false ∧ plan.fromCarriedPaise ≠ 0 then [(asAt, plan.fromCarriedPaise)] else []

theorem taken_shared (h : Planned plan) :
    takenFrom .shared (tranches asAt carriedIsShared plan) = sharedPart asAt carriedIsShared plan := by
  have hshared := h.shared
  have hcarried := h.carried
  unfold tranches sharedPart
  dsimp only
  rw [taken_append, taken_later, if_pos rfl]
  congr 1
  by_cases hc : plan.fromCarriedPaise = 0 <;> by_cases hs : plan.fromSharedToAsAtPaise = 0
  · cases carriedIsShared <;> simp [takenFrom, hc, hs]
  · cases carriedIsShared <;> simp [takenFrom, hc, hs]
  · cases carriedIsShared <;> simp [takenFrom, hc, hs]
  · have hsum : plan.fromSharedToAsAtPaise + plan.fromCarriedPaise ≠ 0 := by omega
    cases carriedIsShared <;> simp [takenFrom, hc, hs, hsum]

theorem taken_carried (asAt : Day) (carriedIsShared : Bool) (plan : AssetPlan) :
    takenFrom .carried (tranches asAt carriedIsShared plan) =
      carriedPart asAt carriedIsShared plan := by
  unfold tranches carriedPart
  dsimp only
  rw [taken_append, taken_later, if_neg (nofun : ¬Source.carried = .shared), List.append_nil]
  by_cases hc : plan.fromCarriedPaise = 0 <;> by_cases hs : plan.fromSharedToAsAtPaise = 0
  all_goals cases carriedIsShared <;> simp [takenFrom, hc, hs]

/-- All that an asset's entries credit is what its plan says. -/
theorem tranches_credit (asAt : Day) (carriedIsShared : Bool) (plan : AssetPlan) :
    ((tranches asAt carriedIsShared plan).map Tranche.creditPaise).sum =
      plan.creditToOwnLedgerPaise := by
  have hlater : ((plan.later.map fun p => (⟨p.1, [(.shared, p.2)]⟩ : Tranche)).map
      Tranche.creditPaise).sum = plan.fromSharedAfterAsAtPaise := by
    rw [List.map_map]
    refine congrArg List.sum (List.map_congr_left fun p _ => ?_)
    simp [Tranche.creditPaise]
  unfold tranches AssetPlan.creditToOwnLedgerPaise
  dsimp only
  rw [List.map_append, List.sum_append, hlater]
  congr 1
  by_cases hc : plan.fromCarriedPaise = 0 <;> by_cases hs : plan.fromSharedToAsAtPaise = 0
  all_goals cases carriedIsShared <;> simp [Tranche.creditPaise, hc, hs]

section
variable {plans : List AssetPlan}

theorem taken_posted (source : Source) (asAt : Day) (carriedIsShared : Bool)
    (plans : List AssetPlan) :
    takenFrom source (posted asAt carriedIsShared plans) =
      (plans.filter (·.outcome ≠ .excluded)).flatMap fun p =>
        takenFrom source (tranches asAt carriedIsShared p) :=
  List.flatMap_assoc

/-- Assets that give nothing up can be left out of what is taken. -/
theorem flat_map_moving {part : AssetPlan → List (Day × ℤ)}
    (h : ∀ p ∈ plans, p.outcome ≠ .moves → part p = []) :
    (plans.filter (·.outcome ≠ .excluded)).flatMap part =
      (plans.filter (·.outcome = .moves)).flatMap part := by
  induction plans with
  | nil => rfl
  | cons p plans ih =>
    obtain ⟨hp, hrest⟩ := List.forall_mem_cons.mp h
    cases hout : p.outcome with
    | moves =>
      rw [List.filter_cons_of_pos (by simp [hout]), List.filter_cons_of_pos (by simp [hout]),
        List.flatMap_cons, List.flatMap_cons, ih hrest]
    | pointedOnly =>
      have hnone := hp (by simp [hout])
      rw [List.filter_cons_of_pos (by simp [hout]), List.filter_cons_of_neg (by simp [hout]),
        List.flatMap_cons, hnone, List.nil_append, ih hrest]
    | excluded =>
      rw [List.filter_cons_of_neg (by simp [hout]), List.filter_cons_of_neg (by simp [hout]),
        ih hrest]

theorem shared_of_posted (h : ∀ p ∈ plans, Planned p) :
    takenFrom .shared (posted asAt carriedIsShared plans) =
      (plans.filter (·.outcome = .moves)).flatMap (sharedPart asAt carriedIsShared) := by
  have hpart : (plans.filter (·.outcome ≠ .excluded)).flatMap
      (fun p => takenFrom .shared (tranches asAt carriedIsShared p)) =
      (plans.filter (·.outcome ≠ .excluded)).flatMap (sharedPart asAt carriedIsShared) :=
    List.flatMap_congr fun p hp => taken_shared (h p (List.mem_of_mem_filter hp))
  rw [taken_posted, hpart]
  refine flat_map_moving fun p hp hstill => ?_
  obtain ⟨hs, hc, hl⟩ := (h p hp).still hstill
  simp [sharedPart, hs, hc, hl]

theorem carried_of_posted (h : ∀ p ∈ plans, Planned p) :
    takenFrom .carried (posted asAt carriedIsShared plans) =
      (plans.filter (·.outcome = .moves)).flatMap (carriedPart asAt carriedIsShared) := by
  rw [taken_posted]
  simp only [taken_carried]
  refine flat_map_moving fun p hp hstill => ?_
  obtain ⟨-, hc, -⟩ := (h p hp).still hstill
  simp [carriedPart, hc]

/-- The carried-over parts all leave on the stated date. -/
theorem left_carried (asAt d : Day) (moving : List AssetPlan) :
    leftBy (moving.flatMap (carriedPart asAt false)) d =
      if asAt ≤ d then (moving.map AssetPlan.fromCarriedPaise).sum else 0 := by
  induction moving with
  | nil => simp
  | cons p moving ih =>
    rw [List.flatMap_cons, left_by_append, ih, List.map_cons, List.sum_cons]
    by_cases hc : p.fromCarriedPaise = 0 <;> by_cases hd : asAt ≤ d <;>
      simp [carriedPart, leftBy, hc, hd]

end

theorem held_readings {dates : List Day} (before : Day → ℤ) (hd : d ∈ dates) :
    heldAt (readings before dates) d = some (before d) := by
  unfold heldAt
  induction dates with
  | nil => simp at hd
  | cons e dates ih =>
    rw [readings, List.map_cons, Dict.get]
    by_cases he : e = d
    · subst he
      simp
    · rw [if_neg he]
      exact ih ((List.mem_cons.mp hd).resolve_left (Ne.symm he))

/-- A shared ledger that nothing is said against covers what has left it on every date it was read. -/
theorem shared_covered {sharedBalanceAt : List (Day × Option ℤ)} {pairs : List (Day × ℤ)}
    (h : sharedRefusal saysRupees saysDate sharedBalanceAt (grouped pairs) = none)
    (hd : d ∈ sharedBalanceAt.map Prod.fst) :
    Covered (heldAt sharedBalanceAt) d (leftBy pairs d) := by
  have hsame : leftBy (grouped pairs) d = leftBy pairs d :=
    sum_grouped_filter (p := fun k => decide (k ≤ d)) pairs
  rw [← hsame]
  exact covered (Option.map_eq_none_iff.mp h)
    (fun p hp => List.mem_append_right _ (List.mem_map_of_mem hp)) (List.mem_append_left _ hd)

theorem carried_held {balances : List (Day × Option ℤ)}
    (h : carriedRefusal saysRupees saysDate (.byDate balances) asAt paise = none)
    (hd : d ∈ balances.map Prod.fst) (hasAt : asAt ≤ d) :
    ∃ held, heldAt balances d = some held ∧ paise ≤ held := by
  have hnone := List.find?_eq_none.mp (Option.map_eq_none_iff.mp h) d (mem_sorted_set.mpr hd)
  cases hheld : heldAt balances d with
  | none => simp [hasAt, hheld] at hnone
  | some held => exact ⟨held, rfl, by simpa [hasAt, hheld] using hnone⟩

theorem own_exact (h : ownRefusal saysRupees (some own) already = none) : own = already := by
  unfold ownRefusal at h
  rw [Option.elim_some] at h
  split_ifs at h with hmore hless
  omega

/-- The dates of the readings are those they are made at. -/
@[simp] theorem readings_dates (before : Day → ℤ) (dates : List Day) :
    (readings before dates).map Prod.fst = dates := by
  simp [readings, Function.comp_def]

/-- A batch with something to move that nothing is said against. -/
theorem clean_batch {plans : List AssetPlan} {shared carried : Day → ℤ}
    (hclean : (checkBatch saysRupees saysDate plans asAt (readings shared points) carriedIsShared
      (.byDate (readings carried points)) (some own) already).refusals = [])
    (hmoving : plans.filter (·.outcome = .moves) ≠ []) :
    sharedRefusal saysRupees saysDate (readings shared points)
        (outflowByDate plans asAt carriedIsShared) = none ∧
      (carriedIsShared = false →
        ((plans.filter (·.outcome = .moves)).map AssetPlan.fromCarriedPaise).sum ≠ 0 →
        carriedRefusal saysRupees saysDate (.byDate (readings carried points)) asAt
          ((plans.filter (·.outcome = .moves)).map AssetPlan.fromCarriedPaise).sum = none) ∧
      own = already := by
  have htwice : outflowByDate (plans.filter (·.outcome = .moves)) asAt carriedIsShared =
      outflowByDate plans asAt carriedIsShared := by
    unfold outflowByDate
    rw [List.filter_filter]
    simp
  simp only [checkBatch, if_neg hmoving, List.append_eq_nil_iff, htwice] at hclean
  obtain ⟨⟨hshared, hcarried⟩, hown⟩ := hclean
  refine ⟨by simpa using hshared, fun hapart hpart => ?_, own_exact (by simpa using hown)⟩
  rw [if_pos ⟨hapart, hpart⟩] at hcarried
  simpa using hcarried

theorem mem_month_ends : d ∈ monthEnds first last ↔
    d.monthEnd = d ∧ first.monthIndex ≤ d.monthIndex ∧ d.monthIndex ≤ last.monthIndex := by
  rw [monthEnds, List.mem_map]
  constructor
  · rintro ⟨i, hi, rfl⟩
    rw [List.mem_range] at hi
    rw [Day.month_end_end, Day.month_end_index, Day.month_index_add]
    exact ⟨rfl, by omega, by omega⟩
  · rintro ⟨hend, hfirst, hlast⟩
    refine ⟨d.monthIndex - first.monthIndex, List.mem_range.mpr (by omega), ?_⟩
    have hsame : (first.addMonthsClamped (d.monthIndex - first.monthIndex)).monthEnd = d.monthEnd := by
      rw [Day.month_end_eq, Day.month_index_add]
      omega
    exact hsame.trans hend

/-- The dates judged are the entries' own and the month ends of the months from the first entry's to
the later of the last entry's and today's. -/
theorem mem_check_dates {first last : Day} {dates : List Day} (hfirst : dates.head? = some first)
    (hlast : dates.getLast? = some last) :
    d ∈ checkDates dates today ↔ d ∈ dates ∨ d.monthEnd = d ∧
      first.monthIndex ≤ d.monthIndex ∧ d.monthIndex ≤ (max last today).monthIndex := by
  rw [checkDates, hfirst, hlast]
  dsimp only
  rw [mem_sorted_set, List.mem_append, mem_month_ends]

theorem plan_register (saysRupees : ℤ → String) (pos : AssetPosition) :
    (planAsset saysRupees pos).registerPaise = pos.registerPaise := by
  unfold planAsset
  dsimp only
  split_ifs with hback hnone hover
  · rfl
  · exact hnone.1.symm
  · rfl
  · rfl

/-- What a batch credits to the new ledger is the register figures of the assets it is posted for. -/
theorem posted_credit {plans : List AssetPlan} (h : ∀ p ∈ plans, Planned p) :
    ((posted asAt carriedIsShared plans).map Tranche.creditPaise).sum =
      ((plans.filter (·.outcome ≠ .excluded)).map AssetPlan.registerPaise).sum := by
  have hwhole : ∀ p ∈ plans.filter (·.outcome ≠ .excluded),
      ((tranches asAt carriedIsShared p).map Tranche.creditPaise).sum = p.registerPaise := by
    intro p hp
    obtain ⟨hmem, hkept⟩ := List.mem_filter.mp hp
    rw [tranches_credit]
    exact (h p hmem).whole (by simpa using hkept)
  rw [posted, List.map_flatMap, List.flatMap_def, List.sum_flatten, List.map_map]
  exact congrArg List.sum (List.map_congr_left hwhole)

/-- A batch that nothing is said against leaves a ledger it takes anything from in credit, at every
date judged; it credits every asset's register figure, and to a ledger that holds no more and no less
than the assets pointed at it account for. -/
theorem passed_batch_in_credit (positions : List AssetPosition) (saysRupees : ℤ → String)
    (saysDate : Day → String) (asAt today : Day) (shared carried : Day → ℤ)
    (carriedIsShared : Bool) (own : ℤ) (pointed : List ℤ)
    (hclean :
      let plans := positions.map (planAsset saysRupees)
      let points := checkDates (entryDates plans asAt) today
      (checkBatch saysRupees saysDate plans asAt (readings shared points) carriedIsShared
        (.byDate (readings carried points)) (some own) pointed.sum).refusals = []) :
    let plans := positions.map (planAsset saysRupees)
    let entries := posted asAt carriedIsShared plans
    (∀ d ∈ checkDates (entryDates plans asAt) today,
      (creditAfter shared .shared entries d = shared d ∨
        0 ≤ creditAfter shared .shared entries d) ∧
      (creditAfter carried .carried entries d = carried d ∨
        0 ≤ creditAfter carried .carried entries d)) ∧
    (∀ pos ∈ positions, (planAsset saysRupees pos).outcome ≠ .excluded →
      ((tranches asAt carriedIsShared (planAsset saysRupees pos)).map Tranche.creditPaise).sum =
        pos.registerPaise) ∧
    ((∃ p ∈ plans, p.outcome = .moves) →
      own + (entries.map Tranche.creditPaise).sum =
        pointed.sum + ((plans.filter (·.outcome ≠ .excluded)).map AssetPlan.registerPaise).sum) := by
  intro plans entries
  set points := checkDates (entryDates plans asAt) today
  have hplanned : ∀ p ∈ plans, Planned p := by
    intro p hp
    obtain ⟨pos, -, rfl⟩ := List.mem_map.mp hp
    exact planned saysRupees pos
  refine ⟨fun d hd => ?_, fun pos _ hkept => ?_, fun ⟨p, hp, hmoves⟩ => ?_⟩
  · by_cases hmoving : plans.filter (·.outcome = .moves) = []
    · have hnone : takenFrom .shared entries = [] ∧ takenFrom .carried entries = [] := by
        rw [shared_of_posted hplanned, carried_of_posted hplanned, hmoving]
        exact ⟨rfl, rfl⟩
      simp [creditAfter, hnone.1, hnone.2]
    · obtain ⟨hshared, hcarried, -⟩ := clean_batch hclean hmoving
      constructor
      · have hcovered : Covered (heldAt (readings shared points)) d
            (leftBy ((plans.filter (·.outcome = .moves)).flatMap (sharedPart asAt carriedIsShared)) d) :=
          shared_covered hshared (by simpa using hd)
        rw [creditAfter, shared_of_posted hplanned]
        rcases hcovered with hzero | ⟨held, hheld, hle⟩
        · exact .inl (by rw [hzero, sub_zero])
        · rw [held_readings shared hd] at hheld
          obtain rfl := Option.some.inj hheld
          exact .inr (sub_nonneg.mpr hle)
      · rw [creditAfter, carried_of_posted hplanned]
        cases hapart : carriedIsShared with
        | true =>
          have hnone : (plans.filter (·.outcome = .moves)).flatMap (carriedPart asAt true) = [] :=
            List.flatMap_eq_nil_iff.mpr fun p _ => if_neg fun h => Bool.noConfusion h.1
          exact .inl (by rw [hnone, left_by_nil, sub_zero])
        | false =>
          rw [left_carried]
          split_ifs with hasAt
          · by_cases hpart :
                ((plans.filter (·.outcome = .moves)).map AssetPlan.fromCarriedPaise).sum = 0
            · exact .inl (by rw [hpart, sub_zero])
            · obtain ⟨held, hheld, hle⟩ := carried_held (hcarried hapart hpart) (by simpa using hd) hasAt
              rw [held_readings carried hd] at hheld
              obtain rfl := Option.some.inj hheld
              exact .inr (sub_nonneg.mpr hle)
          · exact .inl (sub_zero _)
  · rw [tranches_credit, (planned saysRupees pos).whole hkept, plan_register]
  · have hmoving : plans.filter (·.outcome = .moves) ≠ [] :=
      List.ne_nil_of_mem (List.mem_filter.mpr ⟨hp, by simpa using hmoves⟩)
    obtain ⟨-, -, hown⟩ := clean_batch hclean hmoving
    rw [hown, posted_credit hplanned]

/-- The 100 that an asset brought with it leaves a ledger of its own in February, the 100 that was
posted since leaves the shared one in March. -/
theorem february_batch_in_credit :
    let plans := [planAsset (fun _ => "") ⟨"a", "IA-1", "Software", 200, 0, [(.of 2026 3 31, 100)]⟩]
    let entries := posted (.of 2026 2 28) false plans
    ∀ d ∈ checkDates (entryDates plans (.of 2026 2 28)) (.of 2026 3 31),
      creditAfter (fun _ => 100) .shared entries d = 100 ∨
        0 ≤ creditAfter (fun _ => 100) .shared entries d := by
  intro plans entries d hd
  have hbatch := passed_batch_in_credit
    [⟨"a", "IA-1", "Software", 200, 0, [(.of 2026 3 31, 100)]⟩] (fun _ => "") (fun _ => "")
    (.of 2026 2 28) (.of 2026 3 31) (fun _ => 100) (fun _ => 100) false 0 [] (by decide)
  exact (hbatch.1 d hd).1

/-- A shared ledger that stands at a debit of 50 until March is not looked at in February, when the
entry takes from the other ledger. An asset whose journals posted more than the register has is not
moved. A batch that moves nothing is not held against what the new ledger has. -/
theorem debit_before_anything_leaves :
    (let pos : AssetPosition := ⟨"a", "IA-1", "Software", 200, 0, [(.of 2026 3 31, 100)]⟩
     let plans := [planAsset (fun _ => "") pos]
     let shared := fun d : Day => if d < .of 2026 3 31 then -50 else 100
     let points := checkDates (entryDates plans (.of 2026 2 28)) (.of 2026 3 31)
     (checkBatch (fun _ => "") (fun _ => "") plans (.of 2026 2 28) (readings shared points) false
       (.byDate (readings (fun _ => 100) points)) (some 0) 0).refusals = [] ∧
     .of 2026 2 28 ∈ entryDates plans (.of 2026 2 28) ∧
     creditAfter shared .shared (posted (.of 2026 2 28) false plans) (.of 2026 2 28) < 0) ∧
    (let plans := [planAsset (fun _ => "") ⟨"b", "IA-2", "Licence", 200, 300, []⟩]
     (checkBatch (fun _ => "") (fun _ => "") plans (.of 2026 2 28) [] true .unread (some 0)
       0).refusals = [] ∧
     ((posted (.of 2026 2 28) true plans).map Tranche.creditPaise).sum ≠ 200) ∧
    (let plans := [planAsset (fun _ => "") ⟨"c", "IA-3", "Brand", 0, 0, []⟩]
     (checkBatch (fun _ => "") (fun _ => "") plans (.of 2026 2 28) [] true .unread (some 100)
       0).refusals = [] ∧
     100 + ((posted (.of 2026 2 28) true plans).map Tranche.creditPaise).sum ≠
       ((plans.filter (·.outcome ≠ .excluded)).map AssetPlan.registerPaise).sum) := by
  decide

end Caflow.FixedAssets.AmortisationReclass
