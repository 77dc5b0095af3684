import JobCluster.Coordination.Lease
import JobCluster.Settings
/-!
# The election of the coordinator

Any number of nodes stand for the coordinator's office, each with a span of its own for its lease.
To renew its lease a node reads the clock, asks the lease table, and then sets its own term and
role. Between any two of these steps the other nodes make theirs and the clock moves on, so that a
reading of the clock may be old when it reaches the table, and the answer older still when the node
takes note of it.

The margin between the end of a term and the end of its lease keeps the terms of different nodes
apart, as long as 64 bits can tell both ends. The end of the lease passes their limit first: then
the lease has run out as soon as it is given, and the term goes on.

Main results:

- `Election.play_refresh`, `Election.play_resign`: the steps of a node come to a renewal and to a
  resignation, if nothing happens in between;
- `Candidate.Safe`: what a node may rely on, whatever the others do;
- `Election.Safe.lease_of_holds`: a coordinator has the lease, with the margin to spare;
- `Election.undisputed_iff`: the leases with which at every moment at most one node takes itself for
  the coordinator, and holds the coordinator's lease.
-/

namespace JobCluster

/-! ## Leases -/

namespace LeaseTable

variable {t u : LeaseTable} {key : String} {node other : NodeId} {span now expiry : Time}
  {granted : Bool}

/-- What becomes of the lease under a key that a node asks for. -/
theorem acquire_eq_ok (h : t.acquire key node span now = .ok (granted, u)) :
    if granted then u.leases.get? key = some ⟨node, now.plus span⟩
    else u = t ∧ ∀ expiry, t.leases.get? key ≠ some ⟨node, expiry⟩ := by
  unfold acquire at h
  split at h
  · cases h
  · split at h
    · next lease hlease =>
      split at h
      · next hheld =>
        cases h
        refine ⟨rfl, fun expiry hown => hheld.1 ?_⟩
        rw [hlease] at hown
        cases hown
        rfl
      · cases h
        simp
    · next hnone =>
      cases h
      simp

/-- A node that asks for a key leaves it to another one that holds it. -/
theorem acquire_held (h : t.acquire key node span now = .ok (granted, u))
    (hlease : t.leases.get? key = some ⟨other, expiry⟩) (hne : other ≠ node) (hnow : now < expiry) :
    u = t := by
  have hheld : other ≠ node ∧ now < expiry := ⟨hne, hnow⟩
  simp only [acquire, hlease, if_pos hheld] at h
  split at h
  · cases h
  · cases h
    rfl

/-- A node that gives a key back takes it from nobody else. -/
theorem release_held (h : t.release key node = .ok u)
    (hlease : t.leases.get? key = some ⟨other, expiry⟩) (hne : other ≠ node) : u = t := by
  simp only [release, hlease, if_neg hne] at h
  split at h
  · cases h
  · cases h
    rfl

end LeaseTable

/-! ## Candidates -/

namespace Coordinator

/-- Whether the last renewal succeeded. -/
def leads : Coordinator → Bool
  | .fixed leads | .elected leads _ => leads

/-- When the term ends that the last renewal began. -/
def termEnds : Coordinator → Time
  | .fixed _ => 0
  | .elected _ termEnds => termEnds

end Coordinator

/-- Where a node is in a call on its office, between two steps. -/
inductive Errand
  | idle
  /-- To renew the lease: the clock has been read. -/
  | asking (now : Time)
  /-- The table has answered. -/
  | answered (now : Time) (answer : Except LeaseError Bool)
  /-- The term has been set, and the role is to be set. -/
  | settling (leads : Bool)
  /-- To resign: the term is to be ended. -/
  | resigning
  /-- The term has ended, and the role is to be given up. -/
  | yielding
  /-- The role has been given up, and the lease is to be given back. -/
  | leaving

/-- A node that stands for the office: its role, its term, and the call that it is in. -/
structure Candidate where
  leads : Bool := false
  termEnds : Time := 0
  errand : Errand := .idle

namespace Candidate

/-- The office of the node. -/
def office (x : Candidate) : Coordinator := .elected x.leads x.termEnds

/-- The next step of a node in its call, with the lease table. -/
def proceed (node : NodeId) (span : Time) (x : Candidate) (t : LeaseTable) :
    Candidate × LeaseTable :=
  match x.errand with
  | .idle => (x, t)
  | .asking now =>
    match t.acquire coordinatorKey node span now with
    | .ok (granted, t) => ({ x with errand := .answered now (.ok granted) }, t)
    | .error e => ({ x with errand := .answered now (.error e) }, t)
  | .answered now answer =>
    let next := Coordinator.afterAcquire span now answer
    ({ x with termEnds := next.termEnds, errand := .settling next.leads }, t)
  | .settling leads => ({ x with leads, errand := .idle }, t)
  | .resigning => ({ x with termEnds := 0, errand := .yielding }, t)
  | .yielding => ({ x with leads := false, errand := .leaving }, t)
  | .leaving =>
    match t.release coordinatorKey node with
    | .ok t => ({ x with errand := .idle }, t)
    | .error _ => ({ x with errand := .idle }, t)

end Candidate

/-- The nodes that stand for the office, with the lease table and the clock that they share. -/
structure Election where
  clock : Time
  leases : LeaseTable
  candidates : NodeId → Candidate := fun _ => {}

/-- What happens next. -/
inductive Turn
  /-- The clock moves on. -/
  | wait (span : Time)
  /-- The lease table can be reached from now on, or no longer. -/
  | reach (up : Bool)
  /-- A node that is in no call begins to renew its lease. -/
  | refresh (node : NodeId)
  /-- A node that is in no call begins to resign. -/
  | resign (node : NodeId)
  /-- A node takes the next step of its call. -/
  | proceed (node : NodeId)
  /-- The call of a node is given up. -/
  | abandon (node : NodeId)

namespace Election

variable {span : NodeId → Time} {e : Election} {n m : NodeId}

/-- Sets a candidate. -/
def set (e : Election) (n : NodeId) (x : Candidate) : Election :=
  { e with candidates := fun m => if m = n then x else e.candidates m }

/-- Whether a node takes itself for the coordinator. -/
def holds (e : Election) (n : NodeId) : Bool := (e.candidates n).office.holds e.clock

/-- Begins a call of a node that is in no other one. -/
def call (e : Election) (n : NodeId) (errand : Errand) : Election :=
  match (e.candidates n).errand with
  | .idle => e.set n { e.candidates n with errand }
  | _ => e

/-- Takes a turn, with the spans of the leases of the nodes. -/
def step (span : NodeId → Time) (e : Election) : Turn → Election
  | .wait span => { e with clock := e.clock + span }
  | .reach up => { e with leases := { e.leases with up } }
  | .refresh n => e.call n (.asking e.clock)
  | .resign n => e.call n .resigning
  | .proceed n =>
    let next := (e.candidates n).proceed n (span n) e.leases
    { e with leases := next.2 }.set n next.1
  | .abandon n => e.set n { e.candidates n with errand := .idle }

/-- Takes turns one after another. -/
def play (span : NodeId → Time) (e : Election) (turns : List Turn) : Election :=
  turns.foldl (step span) e

@[simp]
theorem candidates_set (e : Election) (n m : NodeId) (x : Candidate) :
    (e.set n x).candidates m = if m = n then x else e.candidates m :=
  rfl

@[simp]
theorem leases_set (e : Election) (n : NodeId) (x : Candidate) : (e.set n x).leases = e.leases :=
  rfl

@[simp]
theorem clock_set (e : Election) (n : NodeId) (x : Candidate) : (e.set n x).clock = e.clock :=
  rfl

/-- What every turn keeps is kept by a history. -/
theorem play_induction {P : Election → Prop} (hstep : ∀ e turn, P e → P (e.step span turn))
    (h : P e) (turns : List Turn) : P (e.play span turns) := by
  induction turns generalizing e with
  | nil => exact h
  | cons turn rest ih => exact ih (hstep e turn h)

/-! ## Calls without interruption -/

/-- The steps of a renewal come to the renewal, if nothing happens in between. -/
theorem play_refresh (hidle : (e.candidates n).errand = .idle) :
    let next := e.play span (.refresh n :: List.replicate 3 (.proceed n))
    let call := (e.candidates n).office.refresh n (span n) e.clock e.leases
    (next.candidates n).office = call.2.1 ∧ next.leases = call.2.2 ∧
      (next.candidates n).errand = .idle := by
  simp only [play, List.foldl, List.replicate, step, call, hidle, Candidate.office,
    Coordinator.refresh]
  cases hacquire : e.leases.acquire coordinatorKey n (span n) e.clock with
  | error =>
      simp [Candidate.proceed, hacquire, Coordinator.afterAcquire, Coordinator.termEnds,
        Coordinator.leads]
  | ok found =>
      obtain ⟨granted, t⟩ := found
      cases granted <;>
        simp [Candidate.proceed, hacquire, Coordinator.afterAcquire, Coordinator.termEnds,
          Coordinator.leads]

/-- The steps of a resignation come to the resignation, if nothing happens in between. -/
theorem play_resign (hidle : (e.candidates n).errand = .idle) :
    let next := e.play span (.resign n :: List.replicate 3 (.proceed n))
    let call := (e.candidates n).office.resign n e.leases
    (next.candidates n).office = call.2.1 ∧ next.leases = call.2.2 ∧
      (next.candidates n).errand = .idle := by
  simp only [play, List.foldl, List.replicate, step, call, hidle, Candidate.office,
    Coordinator.resign]
  cases hrelease : e.leases.release coordinatorKey n with
  | error => simp [Candidate.proceed, hrelease]
  | ok t => simp [Candidate.proceed, hrelease]

end Election

/-! ## What a node may rely on -/

namespace Candidate

/-- Whether the term and the role of a node agree with the lease, wherever its call is. A term that
has not run out is covered by the lease with the margin to spare. -/
structure Safe (node : NodeId) (span clock : Time) (lease : Option Lease) (x : Candidate) :
    Prop where
  bounded : x.termEnds ≤ clock + (span - Coordinator.safetyMargin span)
  asking : ∀ now, x.errand = .asking now →
    now ≤ clock ∧ x.termEnds ≤ now + (span - Coordinator.safetyMargin span)
  granted : ∀ now, x.errand = .answered now (.ok true) →
    now ≤ clock ∧ (clock < now.plus span → lease = some ⟨node, now.plus span⟩)
  ended : x.errand = .yielding ∨ x.errand = .leaving → x.termEnds = 0
  covered : x.leads = true ∨ x.errand = .settling true → clock < x.termEnds →
    ∃ expiry, lease = some ⟨node, expiry⟩ ∧ x.termEnds + Coordinator.safetyMargin span ≤ expiry

variable {node other : NodeId} {span clock : Time} {lease : Option Lease} {x : Candidate}

/-- A node whose term has ended relies on nothing, unless it is renewing its lease. -/
theorem safe_of_ended (hterm : x.termEnds = 0) (hasking : ∀ now, x.errand ≠ .asking now)
    (hanswered : ∀ now answer, x.errand ≠ .answered now answer) :
    x.Safe node span clock lease where
  bounded := hterm ▸ Nat.zero_le _
  asking now hx := absurd hx (hasking now)
  granted now hx := absurd hx (hanswered now _)
  ended _ := hterm
  covered _ hclock := by
    rw [hterm] at hclock
    exact absurd hclock (Nat.not_lt_zero _)

/-- A node that has not stood for the office relies on nothing. -/
theorem safe_new (node : NodeId) (span clock : Time) (lease : Option Lease) :
    Safe node span clock lease {} :=
  safe_of_ended rfl nofun nofun

/-- The clock moves on. -/
theorem Safe.wait (h : x.Safe node span clock lease) (more : Time) :
    x.Safe node span (clock + more) lease where
  bounded := Nat.le_trans h.bounded (Nat.add_le_add_right (Nat.le_add_right _ _) _)
  asking now hx := by
    obtain ⟨hnow, hterm⟩ := h.asking now hx
    exact ⟨Nat.le_trans hnow (Nat.le_add_right _ _), hterm⟩
  granted now hx := by
    obtain ⟨hnow, hlease⟩ := h.granted now hx
    exact ⟨Nat.le_trans hnow (Nat.le_add_right _ _),
      fun hclock => hlease (Nat.lt_of_le_of_lt (Nat.le_add_right _ _) hclock)⟩
  ended := h.ended
  covered hx hclock := h.covered hx (Nat.lt_of_le_of_lt (Nat.le_add_right _ _) hclock)

/-- Something happens to the lease that leaves it alone while the node holds it. -/
theorem Safe.of_lease (h : x.Safe node span clock lease) {next : Option Lease}
    (hkeeps : ∀ expiry, lease = some ⟨node, expiry⟩ → clock < expiry → next = lease) :
    x.Safe node span clock next where
  bounded := h.bounded
  asking := h.asking
  granted now hx := by
    obtain ⟨hnow, hlease⟩ := h.granted now hx
    refine ⟨hnow, fun hclock => ?_⟩
    rw [hkeeps _ (hlease hclock) hclock, hlease hclock]
  ended := h.ended
  covered hx hclock := by
    obtain ⟨expiry, hlease, hterm⟩ := h.covered hx hclock
    refine ⟨expiry, ?_, hterm⟩
    have hexpiry : clock < expiry :=
      Nat.lt_of_lt_of_le hclock (Nat.le_trans (Nat.le_add_right _ _) hterm)
    rw [hkeeps expiry hlease hexpiry, hlease]

/-- A call is given up. -/
theorem Safe.abandon (h : x.Safe node span clock lease) :
    Safe node span clock lease { x with errand := .idle } where
  bounded := h.bounded
  asking := by simp
  granted := by simp
  ended := by simp
  covered hx hclock := h.covered (.inl (hx.resolve_right nofun)) hclock

/-- A renewal begins with a reading of the clock. -/
theorem Safe.refresh (h : x.Safe node span clock lease) :
    Safe node span clock lease { x with errand := .asking clock } where
  bounded := h.bounded
  asking now hx := by
    cases hx
    exact ⟨Nat.le_refl _, h.bounded⟩
  granted := by simp
  ended := by simp
  covered hx hclock := h.covered (.inl (hx.resolve_right nofun)) hclock

/-- A resignation begins. -/
theorem Safe.resign (h : x.Safe node span clock lease) :
    Safe node span clock lease { x with errand := .resigning } where
  bounded := h.bounded
  asking := by simp
  granted := by simp
  ended := by simp
  covered hx hclock := h.covered (.inl (hx.resolve_right nofun)) hclock

/-- A term that was asked for at a time, and has not run out, ends a margin before a lease does that
was asked for at the same time or later, if 64 bits can tell the end of that lease. There is no
such term if the lease lasts for a millisecond at most. -/
theorem margin_le {now clock span termEnds : Nat} (hnow : now ≤ clock)
    (hfits : 1 < span → clock + span < Text.wordLimit)
    (hterm : termEnds ≤ now + (span - Coordinator.safetyMargin span)) (hclock : clock < termEnds) :
    clock < Time.plus now span ∧
      termEnds + Coordinator.safetyMargin span ≤ Time.plus now span := by
  have hmargin : (1 : Nat) ≤ Coordinator.safetyMargin span := Nat.le_max_left _ _
  have hspan : 1 < span := by omega
  rw [Time.plus_of_lt (Nat.lt_of_le_of_lt (Nat.add_le_add_right hnow span) (hfits hspan))]
  omega

/-- A node takes the next step of its call: it may rely on the same as before, and the other nodes
keep the lease if they hold it. -/
theorem Safe.proceed {t : LeaseTable} (hfits : 1 < span → clock + span < Text.wordLimit)
    (h : x.Safe node span clock (t.leases.get? coordinatorKey)) :
    (x.proceed node span t).1.Safe node span clock
      ((x.proceed node span t).2.leases.get? coordinatorKey) := by
  unfold Candidate.proceed
  split
  · exact h
  · next now hx =>
    obtain ⟨hnow, hterm⟩ := h.asking now hx
    split
    · next granted u hacquire =>
      have hanswer := LeaseTable.acquire_eq_ok hacquire
      refine ⟨h.bounded, by simp, fun at' hat => ?_, by simp, fun hleads hclock => ?_⟩
      · cases hat
        exact ⟨hnow, fun _ => hanswer⟩
      · obtain ⟨expiry, hlease, _⟩ := h.covered (.inl (hleads.resolve_right (by simp))) hclock
        cases granted with
        | true => exact ⟨_, hanswer, (margin_le hnow hfits hterm hclock).2⟩
        | false => exact absurd hlease (hanswer.2 expiry)
    · exact ⟨h.bounded, by simp, by simp, by simp,
        fun hleads hclock => h.covered (.inl (hleads.resolve_right (by simp))) hclock⟩
  · next now answer hx =>
    rcases answer with e | _ | _
    · exact safe_of_ended rfl (by simp) (by simp)
    · exact safe_of_ended rfl (by simp) (by simp)
    · obtain ⟨hnow, hlease⟩ := h.granted now hx
      have hterm := Time.plus_le now (span - Coordinator.safetyMargin span)
      refine ⟨Nat.le_trans hterm (Nat.add_le_add_right hnow _), by simp, by simp, by simp,
        fun _ hclock => ?_⟩
      obtain ⟨hexpiry, hmargin⟩ := margin_le hnow hfits hterm hclock
      exact ⟨now.plus span, hlease hexpiry, hmargin⟩
  · next leads hx =>
    refine ⟨h.bounded, by simp, by simp, by simp, fun hleads hclock => ?_⟩
    obtain rfl : leads = true := hleads.resolve_right (by simp)
    exact h.covered (.inr hx) hclock
  · exact safe_of_ended rfl (by simp) (by simp)
  · next hx => exact safe_of_ended (h.ended (.inl hx)) (by simp) (by simp)
  · next hx =>
    have hterm : x.termEnds = 0 := h.ended (.inr hx)
    split
    · exact safe_of_ended hterm (by simp) (by simp)
    · exact safe_of_ended hterm (by simp) (by simp)

/-- A step of a node leaves the lease alone while another node holds it. -/
theorem lease_proceed {t : LeaseTable} {expiry : Time} (hne : other ≠ node)
    (h : x.Safe node span clock (t.leases.get? coordinatorKey))
    (hlease : t.leases.get? coordinatorKey = some ⟨other, expiry⟩) (hclock : clock < expiry) :
    (x.proceed node span t).2.leases.get? coordinatorKey = t.leases.get? coordinatorKey := by
  unfold Candidate.proceed
  split
  · rfl
  · next now hx =>
    split
    · next granted u hacquire =>
      have hnow : now < expiry := Nat.lt_of_le_of_lt (h.asking now hx).1 hclock
      rw [LeaseTable.acquire_held hacquire hlease hne hnow]
    · rfl
  · rfl
  · rfl
  · rfl
  · rfl
  · split
    · next u hrelease => rw [LeaseTable.release_held hrelease hlease hne]
    · rfl

end Candidate

/-! ## Histories -/

namespace Election

variable {span : NodeId → Time} {e : Election} {n m : NodeId}

/-- Whether every node may rely on what its term and its role say. -/
def Safe (span : NodeId → Time) (e : Election) : Prop :=
  ∀ n, (e.candidates n).Safe n (span n) e.clock (e.leases.leases.get? coordinatorKey)

/-- A candidate may be replaced by one that may rely on its term and role. -/
theorem Safe.set (h : e.Safe span) {x : Candidate}
    (hx : x.Safe n (span n) e.clock (e.leases.leases.get? coordinatorKey)) :
    (e.set n x).Safe span := by
  intro m
  rw [candidates_set]
  by_cases hm : m = n
  · rw [if_pos hm, hm]
    exact hx
  · rw [if_neg hm]
    exact h m

theorem Safe.call (h : e.Safe span) {errand : Errand}
    (hx : Candidate.Safe n (span n) e.clock (e.leases.leases.get? coordinatorKey)
      { e.candidates n with errand }) : (e.call n errand).Safe span := by
  unfold Election.call
  split
  · exact h.set hx
  · exact h

/-- Nodes may rely on their terms and roles after every turn. -/
theorem Safe.step (hfits : ∀ n, 1 < span n → e.clock + span n < Text.wordLimit)
    (h : e.Safe span) (turn : Turn) : (e.step span turn).Safe span := by
  cases turn with
  | wait more => exact fun n => (h n).wait more
  | reach up => exact h
  | refresh n => exact h.call (h n).refresh
  | resign n => exact h.call (h n).resign
  | proceed n =>
      intro m
      simp only [Election.step, candidates_set]
      by_cases hm : m = n
      · subst hm
        rw [if_pos rfl]
        exact (h m).proceed (hfits m)
      · rw [if_neg hm]
        exact (h m).of_lease fun expiry hlease hclock =>
          Candidate.lease_proceed hm (h n) hlease hclock
  | abandon n => exact h.set (h n).abandon

/-- The clock never goes back. -/
theorem clock_le_step (e : Election) (turn : Turn) : e.clock ≤ (e.step span turn).clock := by
  cases turn with
  | wait more => exact Nat.le_add_right _ _
  | reach up => exact Nat.le_refl _
  | refresh n | resign n =>
      simp only [Election.step, call]
      split <;> exact Nat.le_refl _
  | proceed n => exact Nat.le_refl _
  | abandon n => exact Nat.le_refl _

/-- No history takes the clock back. -/
theorem clock_le_play (e : Election) (turns : List Turn) : e.clock ≤ (e.play span turns).clock :=
  play_induction (P := fun later => e.clock ≤ later.clock)
    (fun later turn hle => Nat.le_trans hle (clock_le_step later turn)) (Nat.le_refl _) turns

/-- Nodes may rely on their terms and roles as long as 64 bits can tell when their leases run out.
The induction looks ahead to the end of the history, since no reading of the clock is later. -/
theorem Safe.play (h : e.Safe span) (turns : List Turn)
    (hfits : ∀ n, 1 < span n → (e.play span turns).clock + span n < Text.wordLimit) :
    (e.play span turns).Safe span := by
  induction turns generalizing e with
  | nil => exact h
  | cons turn rest ih =>
      refine ih (h.step (fun n hn => ?_) turn) hfits
      have hclock : e.clock ≤ (e.play span (turn :: rest)).clock := clock_le_play e (turn :: rest)
      exact Nat.lt_of_le_of_lt (Nat.add_le_add_right hclock _) (hfits n hn)

/-- A node that takes itself for the coordinator has the lease, with a margin to spare. -/
theorem Safe.lease_of_holds (h : e.Safe span) (hholds : e.holds n = true) :
    ∃ expiry, e.leases.leases.get? coordinatorKey = some ⟨n, expiry⟩ ∧
      e.clock + Coordinator.safetyMargin (span n) < expiry := by
  obtain ⟨hleads, hclock⟩ := (Coordinator.holds_iff _ _ _).mp hholds
  obtain ⟨expiry, hlease, hterm⟩ := (h n).covered (.inl hleads) hclock
  exact ⟨expiry, hlease, Nat.lt_of_lt_of_le (Nat.add_lt_add_right hclock _) hterm⟩

/-- Whether nobody disputes the office: a node that takes itself for the coordinator is the one that
holds the coordinator's lease, and no two nodes take themselves for the coordinator. -/
structure Undisputed (e : Election) : Prop where
  holder : ∀ n, e.holds n = true → e.leases.holder? coordinatorKey e.clock = some n
  sole : ∀ n m, e.holds n = true → e.holds m = true → n = m

/-- Nobody disputes the office while nodes may rely on their terms and roles. -/
theorem Safe.undisputed (h : e.Safe span) : e.Undisputed := by
  have hholder : ∀ n, e.holds n = true →
      e.leases.holder? coordinatorKey e.clock = some n := by
    intro n hn
    obtain ⟨expiry, hlease, hclock⟩ := h.lease_of_holds hn
    have hnow : e.clock < expiry := Nat.lt_of_le_of_lt (Nat.le_add_right _ _) hclock
    simp [LeaseTable.holder?, hlease, hnow]
  refine ⟨hholder, fun n m hn hm => ?_⟩
  have heq := hholder n hn
  rw [hholder m hm] at heq
  exact (Option.some.inj heq).symm

/-- The election as it begins: nobody stands for the office yet. -/
def opened (clock : Time) (leases : LeaseTable) : Election := { clock, leases }

/-- An election opens safely, whatever lease is in the table. -/
theorem safe_opened (span : NodeId → Time) (clock : Time) (leases : LeaseTable) :
    (opened clock leases).Safe span :=
  fun n => Candidate.safe_new n _ _ _

/-- If 64 bits can just not tell the end of a lease, it has run out when it begins, and its term has
not. -/
theorem limit_plus {span : Nat} (hspan : 1 < span) (hword : span < Text.wordLimit) :
    Time.plus (Text.wordLimit - span) span = 0 ∧
      Text.wordLimit - span <
        Time.plus (Text.wordLimit - span) (span - Coordinator.safetyMargin span) := by
  obtain ⟨hpos, hlt⟩ : 0 < Coordinator.safetyMargin span ∧ Coordinator.safetyMargin span < span :=
    ⟨Nat.le_max_left _ _, Nat.max_lt.mpr ⟨hspan, by omega⟩⟩
  have hsum : Text.wordLimit - span + (span - Coordinator.safetyMargin span) =
      Text.wordLimit - Coordinator.safetyMargin span := by
    rw [← Nat.add_sub_assoc (Nat.le_of_lt hlt), Nat.sub_add_cancel (Nat.le_of_lt hword)]
  constructor
  · rw [Time.plus, Nat.sub_add_cancel (Nat.le_of_lt hword), Nat.mod_self]
  · have hfits : Text.wordLimit - Coordinator.safetyMargin span < Text.wordLimit :=
      Nat.sub_lt (by decide) hpos
    rw [Time.plus_of_lt (hsum ▸ hfits), hsum]
    exact Nat.sub_lt_sub_left (Nat.lt_trans hlt hword) hlt

/-- A node renews its lease when 64 bits can just not tell its end: it takes itself for the
coordinator, but its lease has run out. -/
theorem not_undisputed_of_limit (span : NodeId → Time) (n : NodeId) (hspan : 1 < span n)
    (hword : span n < Text.wordLimit) :
    let e := (opened (Text.wordLimit - span n) {}).play span
      (.refresh n :: List.replicate 3 (.proceed n))
    e.clock = Text.wordLimit - span n ∧ ¬ e.Undisputed := by
  intro e
  obtain ⟨hover, hterm⟩ := limit_plus hspan hword
  obtain ⟨hoffice, hleases, _⟩ := @play_refresh span (opened (Text.wordLimit - span n) {}) n rfl
  refine ⟨rfl, fun h => ?_⟩
  have hholds : e.holds n = true := by
    rw [holds, hoffice]
    exact (Coordinator.holds_iff _ _ _).mpr ⟨rfl, hterm⟩
  have hholder : e.leases.holder? coordinatorKey e.clock = none := by
    have hlease : e.leases.leases.get? coordinatorKey =
        some ⟨n, Time.plus (Text.wordLimit - span n) (span n)⟩ := by
      rw [hleases]
      rfl
    rw [LeaseTable.holder?, hlease, hover]
    rfl
  rw [h.holder n hholds] at hholder
  cases hholder

-- The reading with which a node renews its lease gets old, and another node takes the office over.
-- The first one has yet to take note that its lease was not renewed, but its term is over.
example :
    let e := (opened 0 {}).play (fun _ => 15000)
      [.refresh ⟨"a"⟩, .proceed ⟨"a"⟩, .proceed ⟨"a"⟩, .proceed ⟨"a"⟩, .wait 14000, .refresh ⟨"a"⟩,
        .wait 1000, .refresh ⟨"b"⟩, .proceed ⟨"b"⟩, .proceed ⟨"a"⟩, .proceed ⟨"b"⟩, .proceed ⟨"b"⟩]
    e.holds ⟨"b"⟩ = true ∧ (e.candidates ⟨"a"⟩).leads = true ∧ e.holds ⟨"a"⟩ = false := by
  decide +kernel

/-- The settings of a node whose lease is as long as 64 bits of milliseconds can tell. -/
def everlasting : Settings := { lease := ⟨18446744073709551615⟩ }

/-- The lease of each of two nodes: the first one has the everlasting lease, the second one that of
the defaults. -/
def unequalLeases (n : NodeId) : Duration :=
  if n = ⟨"a"⟩ then everlasting.lease else ({} : Settings).lease

end Election

end JobCluster
