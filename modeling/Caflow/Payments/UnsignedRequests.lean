import Caflow.Payments.Webhooks

namespace Caflow.Payments
open Interleaving Interrupted Limits Dict

/-- A delivery that has passed the signature gate and is not over. -/
def Phase.acts : Phase → Bool
  | .received => false
  | .answered _ => false
  | .raised => false
  | _ => true

/-- When the rows were written that unsigned requests left. -/
def Store.unsignedTimes (store : Store) : List ℚ :=
  (store.events.filter fun row => !row.signatureVerified).map EventRow.createdAt

/-- What unsigned requests have left is what the sample limiter let through. -/
structure Watched (store : Store) (through : List (String × ℚ)) : Prop where
  whole : Whole unsignedSamples ⟨store.samples, through⟩ store.clock
  one : ∀ key ∈ store.samples.map Prod.fst, key ∈ ({"process"} : Finset String)
  left : store.unsignedTimes.Sublist (Window.times ⟨store.samples, through⟩ "process")

section
variable {store after : Store} {through : List (String × ℚ)} {event : VerifiedEvent}

theorem Watched.kept (h : Watched store through) (hsamples : after.samples = store.samples)
    (hclock : store.clock ≤ after.clock)
    (htimes : after.unsignedTimes.Sublist store.unsignedTimes) : Watched after through := by
  refine ⟨?_, ?_, ?_⟩
  · rw [hsamples]
    exact h.whole.later hclock
  · rw [hsamples]
    exact h.one
  · rw [hsamples]
    exact htimes.trans h.left

theorem record_event_cases (store : Store) (payment : Option ℕ) (event : VerifiedEvent)
    (firmId : Option String) (written : Outcome Failure) :
    store.recordEvent payment event firmId written = store ∨
    ∃ row, row.createdAt = store.clock ∧ row.signatureVerified = event.signatureVerified ∧
      store.recordEvent payment event firmId written =
        { store with events := store.events ++ [row] } := by
  unfold Store.recordEvent carried
  split
  · exact .inl rfl
  · split
    · exact .inl rfl
    · exact .inr ⟨_, rfl, rfl, rfl⟩

/-- A row of a signed event is none of an unsigned request. -/
theorem Watched.recorded (h : Watched store through) (hsigned : event.signatureVerified = true)
    (payment : Option ℕ) (firmId : Option String) (written : Outcome Failure) :
    Watched (store.recordEvent payment event firmId written) through := by
  rcases record_event_cases store payment event firmId written with hkeep | ⟨row, -, hrow, hadd⟩
  · rw [hkeep]
    exact h
  · rw [hadd]
    refine h.kept rfl le_rfl ?_
    have hsame : Store.unsignedTimes { store with events := store.events ++ [row] } =
        store.unsignedTimes := by
      unfold Store.unsignedTimes
      rw [List.filter_append]
      simp [hrow, hsigned]
    rw [hsame]

/-- A write to the other tables. -/
theorem Watched.elsewhere (h : Watched store through) (hsamples : after.samples = store.samples)
    (hclock : after.clock = store.clock) (hevents : after.events = store.events)
    (written : Outcome Failure) : Watched (carried written store after) through := by
  unfold carried
  split
  · exact h
  · refine h.kept hsamples hclock.ge ?_
    unfold Store.unsignedTimes
    rw [hevents]

/-- An unsigned request leaves a row only where the sample limiter lets it through. -/
theorem Watched.refused (h : Watched store through) {call : Call}
    (hunsigned : call.event.signatureVerified = false) (written : Outcome Failure) :
    ∃ through', Watched (refuseUnsigned store call written).1 through' := by
  have hkey : "process" ∈ ({"process"} : Finset String) := Finset.mem_singleton_self _
  have hroom := h.whole.kept.room (by decide) h.one hkey
  have hwhole := h.whole.hit "process" le_rfl hroom
  have hone := hit_inside h.one hkey store.clock hroom
  rw [window_hit] at hwhole hone
  unfold refuseUnsigned
  dsimp only
  split
  · cases hsample : (unsignedSamples.hit store.samples "process" store.clock).1 with
    | false =>
      rw [hsample] at hwhole hone
      exact ⟨through, hwhole, hone, h.left⟩
    | true =>
      rw [hsample] at hwhole hone
      refine ⟨through ++ [("process", store.clock)], ?_⟩
      set opened : Store := { store with
        perIp := (unsignedPerIp.hit store.perIp ((given call.clientIp).getD "unknown")
          store.clock).2
        samples := (unsignedSamples.hit store.samples "process" store.clock).2 }
      have htimes : Window.times ⟨opened.samples, through ++ [("process", store.clock)]⟩ "process" =
          Window.times ⟨store.samples, through⟩ "process" ++ [store.clock] :=
        times_append through store.samples opened.samples "process" store.clock "process"
      rw [if_pos rfl]
      rcases record_event_cases opened none (boundedSample call.event) none written with
        hkeep | ⟨row, hcreated, hrow, hadd⟩
      · rw [hkeep]
        refine ⟨hwhole, hone, ?_⟩
        rw [htimes]
        exact h.left.trans (List.sublist_append_left _ _)
      · rw [hadd]
        refine ⟨hwhole, hone, ?_⟩
        have hlast : Store.unsignedTimes { opened with events := opened.events ++ [row] } =
            store.unsignedTimes ++ [store.clock] := by
          have hunsigned' : row.signatureVerified = false := hrow.trans hunsigned
          unfold Store.unsignedTimes
          rw [List.filter_append, List.map_append]
          simp [hunsigned', hcreated, opened]
        rw [hlast]
        dsimp only
        rw [htimes]
        exact h.left.append (List.Sublist.refl _)
  · exact ⟨through, h.kept rfl le_rfl (List.Sublist.refl _)⟩

end

section
variable {ι : Type*} [DecidableEq ι] {calls : ι → Call} {w : World ι Store Phase} {i : ι}

omit [DecidableEq ι] in
/-- A signed delivery leaves the sample limiter, and the rows of unsigned requests. -/
theorem signed_watched {through : List (String × ℚ)} (h : Watched w.store through)
    (hsigned : (calls i).event.signatureVerified = true) (r : Reply) :
    Watched (advance calls i w.store (w.phase i) r).1 through := by
  have hlater : Watched (w.store.later r) through :=
    h.kept rfl (le_add_of_nonneg_right r.elapsedPos) (List.Sublist.refl _)
  unfold advance
  cases w.phase i with
  | received =>
    dsimp only
    rw [if_pos hsigned]
    exact hlater
  | verified =>
    dsimp only
    split <;> exact hlater
  | correlating =>
    dsimp only
    split <;> exact hlater
  | linking =>
    dsimp only
    split <;> exact hlater
  | ordering =>
    dsimp only
    split <;> exact hlater
  | opening link =>
    dsimp only
    split
    · refine hlater.elsewhere ?_ ?_ ?_ _ <;> rfl
    · exact hlater
  | noting known =>
    cases known with
    | none => exact hlater.recorded hsigned _ _ _
    | some known => exact hlater.recorded hsigned _ _ _
  | applying payment id =>
    dsimp only
    split
    · split
      · refine hlater.elsewhere ?_ ?_ ?_ _ <;> rfl
      · exact hlater
    · refine hlater.elsewhere ?_ ?_ ?_ _ <;> rfl
  | settling payment id =>
    dsimp only
    split <;> exact hlater
  | receipting payment id data =>
    dsimp only
    split
    · exact hlater.kept rfl le_rfl (List.Sublist.refl _)
    · refine hlater.elsewhere ?_ ?_ ?_ _ <;> rfl
  | reverting id => refine hlater.elsewhere ?_ ?_ ?_ _ <;> rfl
  | sealing payment id receipt => refine hlater.elsewhere ?_ ?_ ?_ _ <;> rfl
  | paying payment id =>
    dsimp only
    split
    · exact hlater
    · refine hlater.elsewhere ?_ ?_ ?_ _ <;> rfl
  | answered answer => exact hlater
  | raised => exact hlater

/-- A delivery that acts has been signed. -/
def Gated (calls : ι → Call) (w : World ι Store Phase) : Prop :=
  ∀ i, (w.phase i).acts = true → (calls i).event.signatureVerified = true

omit [DecidableEq ι] in
theorem advance_gated (h : Gated calls w) (i : ι) (r : Reply)
    (hacts : (advance calls i w.store (w.phase i) r).2.acts = true) :
    (calls i).event.signatureVerified = true := by
  by_contra hunsigned
  have hnot : (w.phase i).acts = false := by
    rw [Bool.eq_false_iff]
    exact fun hbefore => hunsigned (h i hbefore)
  unfold advance at hacts
  cases hphase : w.phase i with
  | received =>
    rw [hphase] at hacts
    dsimp only at hacts
    rw [if_neg hunsigned] at hacts
    unfold refuseUnsigned at hacts
    dsimp only at hacts
    split at hacts <;> cases hacts
  | answered answer =>
    rw [hphase] at hacts
    cases hacts
  | raised =>
    rw [hphase] at hacts
    cases hacts
  | _ =>
    rw [hphase] at hnot
    cases hnot

theorem step_gated (h : Gated calls w) (i : ι) (r : Reply) :
    Gated calls (step (advance calls) w (i, r)) := by
  intro j hacts
  unfold step at hacts
  dsimp only at hacts
  by_cases hji : j = i
  · subst hji
    rw [Function.update_self] at hacts
    exact advance_gated h j r hacts
  · rw [Function.update_of_ne hji] at hacts
    exact h j hacts

/-- An unsigned delivery is over once it is refused. -/
theorem step_watched (hgated : Gated calls w) (h : ∃ through, Watched w.store through) (i : ι)
    (r : Reply) : ∃ through, Watched (step (advance calls) w (i, r)).store through := by
  obtain ⟨through, hwatched⟩ := h
  unfold step
  dsimp only
  cases hsigned : (calls i).event.signatureVerified with
  | true => exact ⟨through, signed_watched hwatched hsigned r⟩
  | false =>
    have hlater : Watched (w.store.later r) through :=
      hwatched.kept rfl (le_add_of_nonneg_right r.elapsedPos) (List.Sublist.refl _)
    have hnot : (w.phase i).acts = false := by
      rw [Bool.eq_false_iff]
      intro hacts
      rw [hgated i hacts] at hsigned
      cases hsigned
    unfold advance
    cases hphase : w.phase i with
    | received =>
      dsimp only
      rw [if_neg (by rw [hsigned]; exact Bool.false_ne_true)]
      exact hlater.refused hsigned r.written
    | answered answer => exact ⟨through, hlater⟩
    | raised => exact ⟨through, hlater⟩
    | _ =>
      rw [hphase] at hnot
      cases hnot

end

/-- However many unsigned requests come, from whatever addresses and among whatever signed
deliveries, in any hour they leave no more rows than the cap; and none of them gets past the
gate. -/
theorem unsigned_leave_little [DecidableEq ι] (calls : ι → Call) (store : Store)
    (hsamples : store.samples = []) (hevents : ∀ row ∈ store.events, row.signatureVerified = true)
    (events : List (ι × Reply)) :
    let w := run (advance calls) ⟨store, fun _ => .received⟩ events
    (∀ t : ℚ, (w.store.unsignedTimes.countP fun x => t - 3600 < x ∧ x ≤ t) ≤ 20) ∧
    ∀ i, (calls i).event.signatureVerified = false → (w.phase i).acts = false := by
  have hnone : store.unsignedTimes = [] := by
    unfold Store.unsignedTimes
    rw [List.map_eq_nil_iff, List.filter_eq_nil_iff]
    intro row hrow
    simp [hevents row hrow]
  have hstart : Watched store [] := by
    refine ⟨?_, ?_, ?_⟩
    · rw [hsamples]
      exact whole_empty unsignedSamples store.clock
    · rw [hsamples]
      exact fun _ hkey => nomatch hkey
    · rw [hnone]
      exact List.nil_sublist _
  obtain ⟨hgated, through, hwatched⟩ := run_keeps
    (fun w => Gated calls w ∧ ∃ through, Watched w.store through)
    (fun w i r h _ => ⟨step_gated h.1 i r, step_watched h.1 h.2 i r⟩) events
    (⟨fun _ hacts => absurd hacts Bool.false_ne_true, [], hstart⟩ :
      Gated calls ⟨store, fun _ => .received⟩ ∧ ∃ through, Watched store through)
    (along_of_all (fun _ _ _ _ => trivial) _ events)
  refine ⟨fun t => ?_, fun i hunsigned => ?_⟩
  · exact (hwatched.left.countP_le).trans (hwatched.whole.within "process" t)
  · rw [Bool.eq_false_iff]
    intro hacts
    rw [hgated i hacts] at hunsigned
    cases hunsigned

/-- Forged deliveries, each from an address of its own. -/
def forged (i : Fin 3) : Call where
  event := ⟨"razorpay", "evt", "payment.captured", .captured, false, some "pay_1", none, none, none⟩
  clientIp := some (toString i.val)

def untouched : Store := ⟨0, [], [], [], [], [], []⟩

theorem forged_leave_little :
    let w := run (advance forged) ⟨untouched, fun _ => .received⟩
      (([0, 1, 2] : List (Fin 3)).map (·, ⟨1, by norm_num, id, .done, none⟩))
    w.store.unsignedTimes = [1] ∧
      (w.store.unsignedTimes.countP fun x => 3 - 3600 < x ∧ x ≤ 3) ≤ 20 :=
  ⟨by decide +kernel, (unsigned_leave_little forged untouched rfl (fun _ hrow => nomatch hrow)
    _).1 3⟩

end Caflow.Payments
