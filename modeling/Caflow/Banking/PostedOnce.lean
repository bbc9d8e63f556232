import Caflow.Banking.Doors

namespace Caflow.Banking.Doors
open Interleaving

variable {ι : Type}

/-- A line shown as posted points at its one entry, and one not shown as posted has none. -/
def Store.Accounted (store : Store ι) : Prop :=
  (store.line.matchStatus = .posted ∧ store.entries.length = 1 ∧
      store.line.postedJournalId = some 0) ∨
    (store.line.matchStatus ≠ .posted ∧ store.entries = [] ∧ store.line.postedJournalId = none)

/-- The call has the line for a settlement, from its claim to its last write. -/
def Phase.holds : Phase → Bool
  | .engine _ | .release _ _ | .writePosted _ => true
  | _ => false

/-- The call has an entry of its own to put on the line. -/
def Phase.carries : Phase → Bool
  | .readAgain _ | .claim _ _ | .writePosted _ => true
  | _ => false

/-- No call writes over what another has under way: a line's own entry is made only where no
receipt or payment was, and a receipt or payment only where the line has no entry of its own; the
claim of a posted line finds it as it was read again, unless it was posted meanwhile; a match is not
written over a posted line, nor cleared from one, and it is not cleared while a settlement has
the line. -/
def Orderly (calls : ι → Call) (w : World ι (Store ι) Phase) (i : ι) (reply : Option Failure) :
    Prop :=
  match w.phase i with
  | .createJournal => ∀ origin ∈ w.store.entries, origin = .line
  | .claim _ prior => w.store.line.matchStatus = prior ∨ w.store.line.matchStatus = .posted
  | .engine _ => reply = none → .line ∉ w.store.entries
  | .write =>
    w.store.line.matchStatus ≠ .posted ∧
      match calls i with
      | .unmatch => ∀ j, (w.phase j).holds = false
      | _ => True
  | _ => True

/-- What a call's place says of the line and its entries. -/
def Standing (i : ι) (store : Store ι) : Phase → Prop
  | .readAgain journalId | .claim journalId _ => store.entries = [.line] ∧ journalId = 0
  | .readDocuments raw | .claimSettlement raw => raw ≠ .posted ∧ raw ≠ .matched
  | .engine raw => (raw ≠ .posted ∧ raw ≠ .matched) ∧ (∀ origin ∈ store.entries, origin = .line) ∧
      (store.line.matchStatus = .matched ∨ store.line.matchStatus = .posted)
  | .release raw _ => (raw ≠ .posted ∧ raw ≠ .matched) ∧
      (store.line.matchStatus = .matched ∨ store.line.matchStatus = .posted)
  | .writePosted journalId => store.entries = [.settlement i] ∧ journalId = 0 ∧
      store.line.matchStatus = .matched
  | _ => True

structure Inv (w : World ι (Store ι) Phase) : Prop where
  single : w.store.entries.length ≤ 1
  posted : w.store.line.matchStatus = .posted →
    w.store.entries ≠ [] ∧ w.store.line.postedJournalId = some 0
  pointed : w.store.line.postedJournalId ≠ none → w.store.line.matchStatus = .posted
  standing : ∀ i, Standing i w.store (w.phase i)
  alone : Alone Phase.holds w.phase
  carried : w.store.entries ≠ [] →
    w.store.line.matchStatus = .posted ∨ ∃ i, (w.phase i).carries = true

theorem inv_start {store : Store ι} (h : store.Accounted) : Inv (start store) := by
  refine ⟨?_, fun hposted => ?_, fun hpointed => ?_, fun _ => trivial, fun i j hi => ?_,
    fun hentries => ?_⟩
  · rcases h with ⟨-, hone, -⟩ | ⟨-, hnone, -⟩
    · exact hone.le
    · change store.entries.length ≤ 1
      simp [hnone]
  · rcases h with ⟨-, hone, hpointer⟩ | ⟨hnot, -, -⟩
    · exact ⟨List.ne_nil_of_length_eq_add_one hone, hpointer⟩
    · exact absurd hposted hnot
  · rcases h with ⟨hposted, -, -⟩ | ⟨-, -, hnone⟩
    · exact hposted
    · exact absurd hnone hpointed
  · cases hi
  · rcases h with ⟨hposted, -, -⟩ | ⟨-, hnone, -⟩
    · exact .inl hposted
    · exact absurd hnone hentries

/-- What a step has to keep of the line and its entries, the rest following from it. -/
structure Keeps (w : World ι (Store ι) Phase) (i : ι) (store : Store ι) (phase : Phase) :
    Prop where
  single : store.entries.length ≤ 1
  posted : store.line.matchStatus = .posted →
    store.entries ≠ [] ∧ store.line.postedJournalId = some 0
  pointed : store.line.postedJournalId ≠ none → store.line.matchStatus = .posted
  own : Standing i store phase
  others : ∀ j, j ≠ i → Standing j w.store (w.phase j) → Standing j store (w.phase j)
  alone : phase.holds → (w.phase i).holds ∨ ∀ j, (w.phase j).holds = false
  carried : store.entries ≠ [] → store.line.matchStatus = .posted ∨ phase.carries = true ∨
    ∃ j, j ≠ i ∧ (w.phase j).carries = true

theorem Inv.keeps [DecidableEq ι] {w : World ι (Store ι) Phase} {calls : ι → Call} {reply : Option Failure}
    (h : Inv w) (hnext : advance calls i w.store (w.phase i) reply = (store, phase))
    (hkeeps : Keeps w i store phase) : Inv (step (advance calls) w (i, reply)) := by
  unfold step
  dsimp only
  rw [hnext]
  refine ⟨hkeeps.single, hkeeps.posted, hkeeps.pointed, ?_, ?_, fun hentries => ?_⟩
  · exact (Function.forall_update_iff w.phase fun j p => Standing j store p).mpr
      ⟨hkeeps.own, fun j hj => hkeeps.others j hj (h.standing j)⟩
  · exact Alone.update h.alone hkeeps.alone
  · rcases hkeeps.carried hentries with hposted | hown | ⟨j, hj, hcarries⟩
    · exact .inl hposted
    · exact .inr ⟨i, (congrArg Phase.carries (Function.update_self i phase w.phase)).trans hown⟩
    · exact .inr ⟨j, (congrArg Phase.carries (Function.update_of_ne hj phase w.phase)).trans hcarries⟩

section
variable {w : World ι (Store ι) Phase}

theorem Inv.stays (h : Inv w) (hown : Standing i w.store p) (hholds : p.holds → (w.phase i).holds)
    (hcarries : (w.phase i).carries → w.store.line.matchStatus = .posted ∨ p.carries) :
    Keeps w i w.store p := by
  refine ⟨h.single, h.posted, h.pointed, hown, fun j _ hj => hj, fun hp => .inl (hholds hp),
    fun hentries => ?_⟩
  rcases h.carried hentries with hposted | ⟨j, hj⟩
  · exact .inl hposted
  · by_cases hji : j = i
    · subst hji
      rcases hcarries hj with hposted | hp
      · exact .inl hposted
      · exact .inr (.inl hp)
    · exact .inr (.inr ⟨j, hji, hj⟩)

theorem Inv.stands (h : Inv w) (hphase : w.phase i = p) : Keeps w i w.store p := by
  subst hphase
  exact h.stays (h.standing i) (fun hp => hp) .inr

/-- A place that has no settlement under way looks at the entries alone. -/
theorem standing_entries {store store' : Store ι} (hentries : store'.entries = store.entries)
    (hline : p.holds = false ∨ store'.line.matchStatus = .matched)
    (h : Standing j store p) : Standing j store' p := by
  unfold Standing at h ⊢
  cases p with
  | readAgain journalId | claim journalId prior =>
    rw [hentries]
    exact h
  | engine raw =>
    rcases hline with hnone | hmatched
    · cases hnone
    · rw [hentries]
      exact ⟨h.1, h.2.1, .inl hmatched⟩
  | release raw failure =>
    rcases hline with hnone | hmatched
    · cases hnone
    · exact ⟨h.1, .inl hmatched⟩
  | writePosted journalId =>
    rcases hline with hnone | hmatched
    · cases hnone
    · rw [hentries]
      exact ⟨h.1, h.2.1, hmatched⟩
  | _ => exact h

/-- Where a line that is not posted has an entry, some other call carries it. -/
theorem Inv.carried_elsewhere (h : Inv w) (hnot : w.store.line.matchStatus ≠ .posted)
    (hown : (w.phase i).carries = false) (hentries : w.store.entries ≠ []) :
    ∃ j, j ≠ i ∧ (w.phase j).carries = true := by
  rcases h.carried hentries with hposted | ⟨j, hj⟩
  · exact absurd hposted hnot
  · refine ⟨j, fun hji => ?_, hj⟩
    subst hji
    rw [hown] at hj
    cases hj

theorem Inv.pointer_none (h : Inv w) (hnot : w.store.line.matchStatus ≠ .posted) :
    w.store.line.postedJournalId = none := by
  by_contra hsome
  exact hnot (h.pointed hsome)

/-- A line that a settlement has is matched or posted. -/
theorem held_status {store : Store ι} (h : Standing j store p) (hholds : p.holds = true) :
    store.line.matchStatus = .matched ∨ store.line.matchStatus = .posted := by
  unfold Standing at h
  cases p with
  | engine raw => exact h.2.2
  | release raw failure => exact h.2
  | writePosted journalId => exact .inl h.2.2
  | _ => cases hholds

/-- Before any receipt or payment the line has its own entry or none. -/
theorem lines_only {entries : List (Origin ι)} (hone : entries.length ≤ 1)
    (hline : ∀ origin ∈ entries, origin = .line) : entries = [] ∨ entries = [.line] := by
  match entries, hone with
  | [], _ => exact .inl rfl
  | [origin], _ =>
    rw [hline origin (List.mem_singleton_self _)]
    exact .inr rfl

theorem create_journal_eq [DecidableEq ι] {store : Store ι} (hone : store.entries.length ≤ 1)
    (hline : ∀ origin ∈ store.entries, origin = .line) :
    store.createJournal = ({ store with entries := [.line] }, 0) := by
  obtain ⟨line, entries, customer, vendor⟩ := store
  rcases lines_only hone hline with hnone | hown
  · dsimp only at hnone
    subst hnone
    rfl
  · dsimp only at hown
    subst hown
    simp [Store.createJournal]

/-- The line's own entry is made where there is no receipt's or payment's. -/
theorem Inv.creates (h : Inv w) (hline : ∀ origin ∈ w.store.entries, origin = .line) (i : ι) :
    Keeps w i { w.store with entries := [.line] } (.readAgain 0) := by
  refine ⟨le_rfl, fun hposted => ⟨List.cons_ne_nil _ _, (h.posted hposted).2⟩, h.pointed,
    ⟨rfl, rfl⟩, fun j _ hj => ?_, nofun, fun _ => .inr (.inl rfl)⟩
  unfold Standing at hj ⊢
  cases hp : w.phase j with
  | readAgain journalId | claim journalId prior =>
    rw [hp] at hj
    exact ⟨rfl, hj.2⟩
  | engine raw =>
    rw [hp] at hj
    exact ⟨hj.1, fun origin ho => List.mem_singleton.mp ho, hj.2.2⟩
  | writePosted journalId =>
    rw [hp] at hj
    have hmem : Origin.settlement j ∈ w.store.entries := by
      rw [hj.1]
      exact List.mem_singleton_self _
    cases hline _ hmem
  | _ =>
    rw [hp] at hj
    exact hj

/-- The line is posted by the entry it was given. -/
theorem Inv.claims (h : Inv w) (hphase : w.phase i = .claim journalId prior) :
    Keeps w i { w.store with line := w.store.line.postedBy journalId } .finished := by
  have hown := h.standing i
  rw [hphase] at hown
  obtain ⟨hentries, rfl⟩ := hown
  refine ⟨h.single, fun _ => ⟨by rw [hentries]; exact List.cons_ne_nil _ _, rfl⟩, fun _ => rfl,
    trivial, fun j _ hj => ?_, nofun, fun _ => .inl rfl⟩
  unfold Standing at hj ⊢
  cases hp : w.phase j with
  | engine raw =>
    rw [hp] at hj
    exact ⟨hj.1, hj.2.1, .inr rfl⟩
  | release raw failure =>
    rw [hp] at hj
    exact ⟨hj.1, .inr rfl⟩
  | writePosted journalId =>
    rw [hp, hentries] at hj
    cases hj.1
  | _ =>
    rw [hp] at hj
    exact hj

/-- A settlement's claim goes through only where no other settlement has the line. -/
theorem Inv.takes (h : Inv w) (hphase : w.phase i = .claimSettlement raw)
    (hstatus : w.store.line.matchStatus = raw) :
    Keeps w i { w.store with line := { w.store.line with matchStatus := .matched } }
      (.engine raw) := by
  have hown := h.standing i
  rw [hphase] at hown
  obtain ⟨hposted, hmatched⟩ := hown
  have hnot : w.store.line.matchStatus ≠ .posted := hstatus ▸ hposted
  have hcarries : (w.phase i).carries = false := by
    rw [hphase]
    rfl
  have hfree : ∀ j, (w.phase j).holds = false := by
    intro j
    cases hholds : (w.phase j).holds with
    | false => rfl
    | true =>
      rcases held_status (h.standing j) hholds with hj | hj
      · exact absurd (hstatus ▸ hj) hmatched
      · exact absurd hj hnot
  have hlines : ∀ origin ∈ w.store.entries, origin = .line := by
    intro origin horigin
    obtain ⟨j, -, hj⟩ := h.carried_elsewhere hnot hcarries (List.ne_nil_of_mem horigin)
    have hstanding := h.standing j
    cases hp : w.phase j with
    | readAgain journalId | claim journalId prior =>
      rw [hp] at hstanding
      rw [hstanding.1] at horigin
      exact List.mem_singleton.mp horigin
    | writePosted journalId =>
      have hnone := hfree j
      rw [hp] at hnone
      cases hnone
    | _ =>
      rw [hp] at hj
      cases hj
  refine ⟨h.single, nofun, fun hp => absurd (h.pointer_none hnot) hp,
    ⟨⟨hposted, hmatched⟩, hlines, .inl rfl⟩, fun j _ hj => ?_, fun _ => .inr hfree,
    fun hentries => .inr (.inr (h.carried_elsewhere hnot hcarries hentries))⟩
  exact standing_entries (by rfl) (.inl (hfree j)) hj

/-- The receipt or payment is made where the line has no entry yet. -/
theorem Inv.settles (h : Inv w) (hphase : w.phase i = .engine raw)
    (hnone : Origin.line ∉ w.store.entries) :
    w.store.entries = [] ∧
      Keeps w i { w.store with entries := [.settlement i] } (.writePosted 0) := by
  have hown := h.standing i
  rw [hphase] at hown
  obtain ⟨-, hlines, hstatus⟩ := hown
  have hempty : w.store.entries = [] := by
    rcases lines_only h.single hlines with hempty | hline
    · exact hempty
    · rw [hline] at hnone
      exact absurd (List.mem_singleton_self _) hnone
  have hnot : w.store.line.matchStatus ≠ .posted := fun hp => (h.posted hp).1 hempty
  have hmatched := hstatus.resolve_right hnot
  have hholds : (w.phase i).holds = true := by
    rw [hphase]
    rfl
  refine ⟨hempty, le_rfl, fun hp => absurd hp hnot, h.pointed, ⟨rfl, rfl, hmatched⟩,
    fun j hj hstanding => ?_, fun _ => .inl hholds, fun _ => .inr (.inl rfl)⟩
  have hfree := h.alone.others_free hholds j hj
  unfold Standing at hstanding ⊢
  cases hp : w.phase j with
  | readAgain journalId | claim journalId prior =>
    rw [hp, hempty] at hstanding
    cases hstanding.1
  | engine raw | release raw failure | writePosted journalId =>
    rw [hp] at hfree
    cases hfree
  | _ =>
    rw [hp] at hstanding
    exact hstanding

/-- A failed settlement gives the line back as it found it. -/
theorem Inv.releases {failure : Failure} (h : Inv w) (hphase : w.phase i = .release raw failure)
    (hstatus : w.store.line.matchStatus = .matched) :
    Keeps w i { w.store with line := { w.store.line with matchStatus := raw } }
      (.refused refusal) := by
  have hown := h.standing i
  rw [hphase] at hown
  obtain ⟨⟨hposted, -⟩, -⟩ := hown
  have hnot : w.store.line.matchStatus ≠ .posted := by
    rw [hstatus]
    decide
  have hholds : (w.phase i).holds = true := by
    rw [hphase]
    rfl
  have hcarries : (w.phase i).carries = false := by
    rw [hphase]
    rfl
  refine ⟨h.single, fun hp => absurd hp hposted, fun hp => absurd (h.pointer_none hnot) hp, trivial,
    fun j hj hstanding => ?_, nofun,
    fun hentries => .inr (.inr (h.carried_elsewhere hnot hcarries hentries))⟩
  exact standing_entries (by rfl) (.inl (h.alone.others_free hholds j hj)) hstanding

/-- The last write of a settlement posts the line by the entry it made. -/
theorem Inv.writes_posted (h : Inv w) (hphase : w.phase i = .writePosted journalId)
    (line : BankLine) : Keeps w i { w.store with line := line.postedBy journalId } .finished := by
  have hown := h.standing i
  rw [hphase] at hown
  obtain ⟨hentries, rfl, -⟩ := hown
  have hholds : (w.phase i).holds = true := by
    rw [hphase]
    rfl
  refine ⟨h.single, fun _ => ⟨by rw [hentries]; exact List.cons_ne_nil _ _, rfl⟩, fun _ => rfl,
    trivial, fun j hj hstanding => ?_, nofun, fun _ => .inl rfl⟩
  exact standing_entries (by rfl) (.inl (h.alone.others_free hholds j hj)) hstanding

/-- A write of the match leaves the entries and is not made over a posted line. -/
theorem Inv.writes_match (h : Inv w) (hphase : w.phase i = .write) {line : BankLine}
    (hnot : w.store.line.matchStatus ≠ .posted) (hline : line.matchStatus ≠ .posted)
    (hpointer : line.postedJournalId = w.store.line.postedJournalId)
    (hheld : line.matchStatus = .matched ∨ ∀ j, (w.phase j).holds = false) :
    Keeps w i { w.store with line := line } .finished := by
  have hcarries : (w.phase i).carries = false := by
    rw [hphase]
    rfl
  refine ⟨h.single, fun hp => absurd hp hline, fun hp => ?_, trivial, fun j _ hstanding => ?_,
    nofun,
    fun hentries => .inr (.inr (h.carried_elsewhere hnot hcarries hentries))⟩
  · rw [show ({ w.store with line := line } : Store ι).line.postedJournalId = _ from hpointer,
      h.pointer_none hnot] at hp
    exact absurd rfl hp
  · refine standing_entries (by rfl) ?_ hstanding
    rcases hheld with hmatched | hfree
    · exact .inr hmatched
    · exact .inl (hfree j)

variable {calls : ι → Call} {reply : Option Failure}

theorem post_keeps [DecidableEq ι] (h : Inv w) (horderly : Orderly calls w i reply) (plan : BankLine → Option Failure) :
    let next := postStep plan w.store (w.phase i)
    Keeps w i next.1 next.2 := by
  cases hphase : w.phase i with
  | readLine =>
    unfold postStep
    dsimp only
    split
    · exact h.stays trivial nofun (by rw [hphase]; nofun)
    · split <;> exact h.stays trivial nofun (by rw [hphase]; nofun)
  | createJournal =>
    have hlines : ∀ origin ∈ w.store.entries, origin = .line := by
      unfold Orderly at horderly
      rwa [hphase] at horderly
    unfold postStep
    dsimp only
    rw [create_journal_eq h.single hlines]
    exact h.creates hlines i
  | readAgain journalId =>
    have hown := h.standing i
    rw [hphase] at hown
    unfold postStep
    dsimp only
    split
    · rename_i hposted
      exact h.stays trivial nofun fun _ => .inl hposted
    · exact h.stays hown nofun fun _ => .inr rfl
  | claim journalId prior =>
    unfold Orderly at horderly
    rw [hphase] at horderly
    unfold postStep
    dsimp only
    split
    · exact h.claims hphase
    · rename_i hlost
      exact h.stays trivial nofun fun _ => .inl (horderly.resolve_left hlost)
  | _ => exact h.stands hphase

theorem settle_keeps (h : Inv w) (horderly : Orderly calls w i reply) (s : Settlement) :
    let next := settleStep i s w.store (w.phase i) reply
    Keeps w i next.1 next.2 := by
  cases hphase : w.phase i with
  | readLine =>
    unfold settleStep
    dsimp only
    cases hrefusal : s.refusal w.store.line with
    | some refusal => exact h.stays trivial nofun (by rw [hphase]; nofun)
    | none =>
      refine h.stays ?_ nofun (by rw [hphase]; nofun)
      unfold Settlement.refusal at hrefusal
      dsimp only at hrefusal
      split at hrefusal
      · cases hrefusal
      · rename_i hfresh
        rw [not_or, not_or] at hfresh
        exact ⟨hfresh.1, hfresh.2.1⟩
  | readDocuments raw =>
    have hown := h.standing i
    rw [hphase] at hown
    unfold settleStep
    dsimp only
    split
    · exact h.stays trivial nofun (by rw [hphase]; nofun)
    · exact h.stays hown nofun (by rw [hphase]; nofun)
  | claimSettlement raw =>
    unfold settleStep
    dsimp only
    split
    · rename_i hfound
      exact h.takes hphase hfound.1
    · exact h.stays trivial nofun (by rw [hphase]; nofun)
  | engine raw =>
    have hown := h.standing i
    unfold Orderly at horderly
    rw [hphase] at hown horderly
    unfold settleStep
    dsimp only
    cases reply with
    | some failure =>
      exact h.stays ⟨hown.1, hown.2.2⟩ (by rw [hphase]; exact fun hp => hp) (by rw [hphase]; nofun)
    | none =>
      obtain ⟨hempty, hkeeps⟩ := h.settles hphase (horderly rfl)
      rw [hempty]
      exact hkeeps
  | release raw failure =>
    unfold settleStep
    dsimp only
    split
    · rename_i hmatched
      exact h.releases hphase hmatched
    · exact h.stays trivial nofun (by rw [hphase]; nofun)
  | writePosted journalId => exact h.writes_posted hphase _
  | _ => exact h.stands hphase

theorem match_keeps (h : Inv w) (horderly : Orderly calls w i reply) (entityType : EntityType)
    (entityId : String) (category : Option String) (owned : Bool) :
    let next := matchStep entityType entityId category owned w.store (w.phase i)
    Keeps w i next.1 next.2 := by
  cases hphase : w.phase i with
  | readLine =>
    unfold matchStep
    dsimp only
    split_ifs <;> exact h.stays trivial nofun (by rw [hphase]; nofun)
  | checkOwner =>
    unfold matchStep
    dsimp only
    split <;> exact h.stays trivial nofun (by rw [hphase]; nofun)
  | write =>
    unfold Orderly at horderly
    rw [hphase] at horderly
    exact h.writes_match hphase horderly.1 nofun rfl (.inl rfl)
  | _ => exact h.stands hphase

theorem unmatch_keeps (h : Inv w) (horderly : Orderly calls w i reply)
    (hcall : calls i = .unmatch) :
    let next := unmatchStep w.store (w.phase i)
    Keeps w i next.1 next.2 := by
  cases hphase : w.phase i with
  | readLine =>
    unfold unmatchStep
    dsimp only
    split_ifs <;> exact h.stays trivial nofun (by rw [hphase]; nofun)
  | write =>
    unfold Orderly at horderly
    rw [hphase, hcall] at horderly
    exact h.writes_match hphase horderly.1 nofun rfl (.inr horderly.2)
  | _ => exact h.stands hphase

theorem Inv.step [DecidableEq ι] (h : Inv w) (horderly : Orderly calls w i reply) :
    Inv (step (advance calls) w (i, reply)) := by
  suffices hkeeps : Keeps w i (advance calls i w.store (w.phase i) reply).1
      (advance calls i w.store (w.phase i) reply).2 from h.keeps rfl hkeeps
  unfold advance
  cases hcall : calls i with
  | post plan => exact post_keeps h horderly plan
  | settle s => exact settle_keeps h horderly s
  | match_ entityType entityId category owned =>
    exact match_keeps h horderly entityType entityId category owned
  | unmatch => exact unmatch_keeps h horderly hcall

theorem ended_carries {p : Phase} (h : p.Ended) : p.carries = false := by
  cases p with
  | finished | refused refusal => rfl
  | _ => exact h.elim

theorem Inv.accounted (h : Inv w) (hended : ∀ i, (w.phase i).Ended) : w.store.Accounted := by
  by_cases hposted : w.store.line.matchStatus = .posted
  · obtain ⟨hentries, hpointer⟩ := h.posted hposted
    have hlength : 0 < w.store.entries.length := List.length_pos_iff.mpr hentries
    exact .inl ⟨hposted, le_antisymm h.single hlength, hpointer⟩
  · refine .inr ⟨hposted, ?_, h.pointer_none hposted⟩
    by_contra hentries
    rcases h.carried hentries with hp | ⟨i, hi⟩
    · exact hposted hp
    · rw [ended_carries (hended i)] at hi
      cases hi

/-- In every orderly run no more than one live entry records the line's cash, and when all calls
have ended a line shown as posted points at it and a line not shown as posted has none. -/
theorem line_posted_once [DecidableEq ι] {store : Store ι} (h : store.Accounted)
    (hrun : Throughout (advance calls) (Orderly calls) (start store) events) :
    let after := run (advance calls) (start store) events
    after.store.entries.length ≤ 1 ∧ ((∀ i, (after.phase i).Ended) → after.store.Accounted) := by
  have hinv := run_keeps_throughout Inv (fun w i r hw hok => Inv.step hw hok) events (inv_start h)
    hrun
  exact ⟨hinv.single, hinv.accounted⟩

end

instance [Fintype ι] [DecidableEq ι] (calls : ι → Call) (w : World ι (Store ι) Phase) (i : ι)
    (reply : Option Failure) : Decidable (Orderly calls w i reply) := by
  unfold Orderly
  split
  · infer_instance
  · infer_instance
  · infer_instance
  · cases calls i <;> infer_instance
  · infer_instance

/-- A credit of a thousand paise, not yet matched, and an invoice it would settle. -/
def freshCredit : Store (Fin 3) where
  line := ⟨0, 1000, .unmatched, none, none, none, some "Sales Receipt"⟩
  entries := []
  invoiceCustomer d := if d = "INV-1" then some "anand" else none
  billVendor _ := none

def settleInvoice (receiptId : String) : Call := .settle ⟨true, [("INV-1", 1000)], 0, receiptId⟩

def postLine : Call := .post fun _ => none

/-- The calls in turn, every engine call carried out. -/
def turns (order : List (Fin 3)) : List (Fin 3 × Option Failure) := order.map (·, none)

def after (calls : Fin 3 → Call) (order : List (Fin 3)) : World (Fin 3) (Store (Fin 3)) Phase :=
  run (advance calls) (start freshCredit) (turns order)

/-- A line posted while a settlement has it is booked twice; so is one whose match is cleared while
a settlement has it and that a second settlement then takes; and one posted while its match is
being cleared is shown as unmatched with its entry in the books. -/
theorem line_posted_twice :
    freshCredit.Accounted ∧
    (let w := after ![settleInvoice "RC-1", postLine, .unmatch] [2, 2, 0, 0, 0, 1, 1, 1, 1, 0, 0]
     (∀ i, (w.phase i).Ended) ∧ w.store.entries = [.line, .settlement 0]) ∧
    (let w := after ![settleInvoice "RC-1", .unmatch, settleInvoice "RC-2"]
      [0, 0, 0, 1, 1, 2, 2, 2, 0, 0, 2, 2]
     (∀ i, (w.phase i).Ended) ∧ w.store.entries = [.settlement 0, .settlement 2]) ∧
    (let w := after ![.unmatch, postLine, .unmatch] [2, 2, 0, 1, 1, 1, 1, 0]
     (∀ i, (w.phase i).Ended) ∧ w.store.entries = [.line] ∧
      w.store.line.matchStatus = .unmatched) := by
  refine ⟨.inr ⟨by decide, rfl, rfl⟩, ?_, ?_, ?_⟩ <;> decide +kernel

/-- A settlement that fails, and then the line posted on its own. -/
theorem line_posted_after_failure :
    let w := run (advance ![settleInvoice "RC-1", postLine, .unmatch]) (start freshCredit)
      (turns [2, 2, 0, 0, 0] ++ [(0, some .fault)] ++ turns [0, 1, 1, 1, 1])
    w.store.entries.length ≤ 1 ∧ ((∀ i, (w.phase i).Ended) → w.store.Accounted) :=
  line_posted_once (.inr ⟨by decide, rfl, rfl⟩) (by decide +kernel)

end Caflow.Banking.Doors
