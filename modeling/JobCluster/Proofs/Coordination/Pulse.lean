import JobCluster.Cluster.Lifecycle
/-!
# The pulse of a node

The heartbeat loop of a node ticks at even intervals. With every tick the node is heard from and
renews the coordinator's lease. The interval is the one from the settings and a jitter, which is
drawn once below a tenth of it; and a coordinator gives its office up a tenth of the lease before
the lease runs out. So what is left of the span of silence and of the term, when the next tick is
due, is less than the settings say. A term is kept as long as 64 bits can tell its end.

Main results:

- `Cluster.beat`, `Cluster.Beats`: a tick, and what comes of a cluster as one node ticks on time;
- `Cluster.LeavesLife`, `Cluster.LeavesOffice`: what else may happen in between;
- `Cluster.Beats.heard`, `Cluster.Beats.inOffice`: what every tick gives until the next one is due;
- `Settings.punctual_iff`: the settings with which nodes that tick on time stay alive and in office.
-/

namespace JobCluster

namespace Settings

/-- The bound below which the jitter of the heartbeats is drawn. -/
def jitterSpread (s : Settings) : Nat := max 1 (s.heartbeat.wordMillis / 10)

/-- The time from one tick of the heartbeat loop to the next. -/
def period (s : Settings) (jitter : Nat) : Time := s.heartbeat.millis + jitter

/-- How long a coordinator stays in office by a renewal of its lease. -/
def term (s : Settings) : Time :=
  s.lease.wordMillis - Coordinator.safetyMargin s.lease.wordMillis

end Settings

/-! ## Who is heard from -/

namespace Heartbeats

variable {h h' h'' : Heartbeats} {node : NodeId} {now : Time}

/-- Whether a node that is still watched counts as heard from no earlier than before, or now. -/
def Renews (node : NodeId) (now : Time) (h h' : Heartbeats) : Prop :=
  ∀ time, h'.last? node = some time → now ≤ time ∨ ∃ before ≤ time, h.last? node = some before

/-- Nobody is heard from any earlier if nothing happens. -/
theorem Renews.refl (node : NodeId) (now : Time) (h : Heartbeats) : Renews node now h h :=
  fun time htime => .inr ⟨time, Nat.le_refl time, htime⟩

/-- Steps that take back no heartbeat do so in turn. -/
theorem Renews.trans (hfirst : Renews node now h h') (hthen : Renews node now h' h'') :
    Renews node now h h'' := by
  intro time htime
  rcases hthen time htime with hnow | ⟨before, hle, hbefore⟩
  · exact .inl hnow
  · rcases hfirst before hbefore with hnow | ⟨earlier, hle', hearlier⟩
    · exact .inl (Nat.le_trans hnow hle)
    · exact .inr ⟨earlier, Nat.le_trans hle' hle, hearlier⟩

/-- A heartbeat takes back no heartbeat of its node, and none of others. -/
theorem renews_heartbeat (node : NodeId) (now : Time) (h : Heartbeats) (other : NodeId) :
    Renews node now h (h.heartbeat other now) := by
  intro time htime
  rw [last?_heartbeat] at htime
  split at htime
  · next heq =>
    subst heq
    split at htime
    · cases htime
      exact .inl (Nat.le_max_right _ _)
    · cases htime
      exact .inl (Nat.le_refl _)
  · exact .inr ⟨time, Nat.le_refl time, htime⟩

/-- To observe a node takes back no heartbeat. -/
theorem renews_observe (node : NodeId) (now : Time) (h : Heartbeats) (other : NodeId) :
    Renews node now h (h.observe other now) := by
  intro time htime
  rw [last?_observe] at htime
  split at htime
  · next heq =>
    subst heq
    cases hlast : h.last? other with
    | none =>
        rw [hlast] at htime
        cases htime
        exact .inl (Nat.le_refl _)
    | some before =>
        rw [hlast] at htime
        cases htime
        exact .inr ⟨_, Nat.le_refl _, rfl⟩
  · exact .inr ⟨time, Nat.le_refl time, htime⟩

theorem renews_observeAll (node : NodeId) (now : Time) (h : Heartbeats) (others : List NodeId) :
    Renews node now h (h.observeAll others now) :=
  List.foldlRecOn others _ (Renews.refl node now h) fun before hbefore other _ =>
    hbefore.trans (renews_observe node now before other)

/-- To forget a node takes back no heartbeat of those that are watched still. -/
theorem renews_forget (node : NodeId) (now : Time) (h : Heartbeats) (other : NodeId) :
    Renews node now h (h.forget other) := by
  intro time htime
  rw [last?_forget] at htime
  split at htime
  · cases htime
  · exact .inr ⟨time, Nat.le_refl time, htime⟩

/-- A node whose jobs are taken over is watched no longer, and nothing happens to the others. -/
theorem renews_recover (node : NodeId) (now : Time) (h : Heartbeats) (store : JobStore)
    (me : NodeId) (stale : List NodeId) :
    Renews node now h (stale.foldl (Housekeeping.recover me) (h, store)).1 := by
  refine List.foldlRecOn stale (motive := fun state : Heartbeats × JobStore =>
    Renews node now h state.1) _ (Renews.refl node now h) fun state hstate other _ => ?_
  unfold Housekeeping.recover
  split
  · exact hstate.trans (renews_forget node now state.1 other)
  · exact hstate

/-- A node is not stale if it was heard from within the span. -/
theorem not_mem_staleNodes {span : Time} {observer : NodeId}
    (hlast : ∀ time, h.last? node = some time → now ≤ time + span) :
    node ∉ h.staleNodes now span observer := by
  rw [mem_staleNodes_iff]
  rintro ⟨time, htime, hstale⟩
  rw [isStale, Bool.and_eq_true, decide_eq_true_eq] at hstale
  exact Nat.not_lt.mpr (Nat.sub_le_iff_le_add'.mpr (hlast time htime)) hstale.2

/-- A node is stale to every other one if it was last heard from before the span began. -/
theorem mem_staleNodes {span time : Time} {observer : NodeId} (hne : node ≠ observer)
    (hlast : h.last? node = some time) (hspan : time + span < now) :
    node ∈ h.staleNodes now span observer := by
  refine (mem_staleNodes_iff _ _ _ _ _).mpr ⟨time, hlast, ?_⟩
  rw [isStale, Bool.and_eq_true, bne_iff_ne, decide_eq_true_eq]
  exact ⟨hne, Nat.lt_sub_iff_add_lt'.mpr hspan⟩

end Heartbeats

/-! ## Ticks -/

namespace Cluster

variable {η ω : Type} {c d : Cluster η ω} {n m : NodeName}

/-- A tick of the heartbeat loop of a node: the node is heard from, and renews the coordinator's
lease. -/
def beat (c : Cluster η ω) (n : NodeName) : Cluster η ω :=
  ({ c with heartbeats := c.heartbeats.heartbeat (c.node n).id c.clock }.refreshCoordinator n).2

/-- The heartbeat that follows a start is a tick. -/
theorem firstHeartbeat_eq_beat (hdue : (c.node n).scheduler.heartbeatDue = true) :
    c.firstHeartbeat n = (c.modifyScheduler n fun s => { s with heartbeatDue := false }).beat n := by
  have hid : ((c.modifyScheduler n fun s => { s with heartbeatDue := false }).node n).id =
      (c.node n).id := by
    simp [modifyScheduler, Node.id]
  simp only [firstHeartbeat, hdue, if_true, beat, hid]

@[simp]
theorem clock_beat (c : Cluster η ω) (n : NodeName) : (c.beat n).clock = c.clock :=
  rfl

@[simp]
theorem heartbeats_beat (c : Cluster η ω) (n : NodeName) :
    (c.beat n).heartbeats = c.heartbeats.heartbeat (c.node n).id c.clock :=
  rfl

@[simp]
theorem settings_beat (c : Cluster η ω) (n m : NodeName) :
    ((c.beat n).node m).settings = (c.node m).settings := by
  simp only [beat, refreshCoordinator, node_setNode]
  split
  · next h => subst h; rfl
  · rfl

/-- A cluster as one node ticks on time, with the time at which the next tick is due. The clock does
not pass that time without the tick; and between two ticks the others do what they may. -/
inductive Beats (others : Cluster η ω → Cluster η ω → Prop) (n : NodeName) (period : Time)
    (start : Cluster η ω) : Cluster η ω → Time → Prop
  | first : Beats others n period start (start.beat n) (start.clock + period)
  | wait {c : Cluster η ω} {due : Time} (h : Beats others n period start c due) (clock : Time)
      (hforward : c.clock ≤ clock) (hdue : clock ≤ due) :
      Beats others n period start { c with clock } due
  | tick {c : Cluster η ω} {due : Time} (h : Beats others n period start c due)
      (hdue : c.clock = due) : Beats others n period start (c.beat n) (due + period)
  | meanwhile {c d : Cluster η ω} {due : Time} (h : Beats others n period start c due)
      (hothers : others c d) : Beats others n period start d due

/-! ## Alive -/

/-- Whether a step of the others leaves a node alive: it does not take back when the node was heard
from. -/
structure LeavesLife (n : NodeName) (c d : Cluster η ω) : Prop where
  clock : d.clock = c.clock
  settings : (d.node n).settings = (c.node n).settings
  renews : Heartbeats.Renews (c.node n).id c.clock c.heartbeats d.heartbeats

/-- Whether a node was heard from at its last tick or later, as far as it is watched. -/
structure Heard (n : NodeName) (s : Settings) (period : Time) (c : Cluster η ω) (due : Time) :
    Prop where
  settings : (c.node n).settings = s
  punctual : c.clock ≤ due
  ticked : due ≤ c.clock + period
  recent : ∀ time, c.heartbeats.last? s.nodeId = some time → due ≤ time + period

/-- A node is heard from with its own tick. -/
theorem heard_beat {s : Settings} (hs : (c.node n).settings = s) (period : Time) :
    (c.beat n).Heard n s period (c.clock + period) where
  settings := (settings_beat c n n).trans hs
  punctual := Nat.le_add_right _ _
  ticked := Nat.le_refl _
  recent := by
    intro time htime
    have hid : (c.node n).id = s.nodeId := congrArg Settings.nodeId hs
    rw [heartbeats_beat, hid, Heartbeats.last?_heartbeat, if_pos rfl] at htime
    refine Nat.add_le_add_right ?_ period
    split at htime
    · cases htime
      exact Nat.le_max_right _ _
    · cases htime
      exact Nat.le_refl _

/-- The node is heard from again with every tick, and the others leave it at that. -/
theorem Beats.heard {s : Settings} {period due : Time} {start : Cluster η ω}
    (h : Beats (LeavesLife n) n period start c due) (hs : (start.node n).settings = s) :
    c.Heard n s period due := by
  induction h with
  | first => exact heard_beat hs period
  | wait h clock hforward hdue ih =>
      have hticked := Nat.le_trans ih.ticked (Nat.add_le_add_right hforward period)
      exact ⟨ih.settings, hdue, hticked, ih.recent⟩
  | tick h hdue ih => exact hdue ▸ heard_beat ih.settings period
  | @meanwhile c d due h hothers ih =>
      have hid : (c.node n).id = s.nodeId := congrArg Settings.nodeId ih.settings
      refine ⟨hothers.settings.trans ih.settings, hothers.clock ▸ ih.punctual,
        hothers.clock ▸ ih.ticked, fun time htime => ?_⟩
      rcases hothers.renews time (hid ▸ htime) with hnow | ⟨before, hle, hbefore⟩
      · exact Nat.le_trans ih.ticked (Nat.add_le_add_right hnow period)
      · exact Nat.le_trans (ih.recent before (hid ▸ hbefore)) (Nat.add_le_add_right hle period)

/-- A node that was heard from at its last tick is not stale, if the span of silence lasts until
the next tick. -/
theorem Heard.not_stale {s : Settings} {period due : Time} (h : c.Heard n s period due)
    (hspan : period ≤ s.stale.wordMillis) (observer : NodeId) :
    s.nodeId ∉ c.heartbeats.staleNodes c.clock s.stale.wordMillis observer :=
  Heartbeats.not_mem_staleNodes fun time htime =>
    Nat.le_trans h.punctual (Nat.le_trans (h.recent time htime) (Nat.add_le_add_left hspan time))

/-- Housekeeping leaves everybody alive: it begins to watch nodes now, and ceases to watch stale
ones. -/
theorem leavesLife_housekeep (c : Cluster η ω) (n m : NodeName) (task : Task) :
    c.LeavesLife n (c.housekeep m task).2 := by
  have hsame : Heartbeats.Renews (c.node n).id c.clock c.heartbeats c.heartbeats := .refl _ _ _
  cases task with
  | job job => exact ⟨rfl, rfl, hsame⟩
  | loadImmediate =>
      refine ⟨rfl, ?_, hsame⟩
      simp only [housekeep, modifyTodo, modifyScheduler, node_modifyNode]
      split
      · next h => subst h; rfl
      · rfl
  | upgradeJobs => exact ⟨rfl, rfl, hsame⟩
  | checkStaleNodes =>
      refine ⟨rfl, rfl, ?_⟩
      simp only [housekeep, Housekeeping.checkStaleNodes]
      split
      · exact hsame
      · refine Heartbeats.Renews.trans ?_ (Heartbeats.renews_recover _ _ _ _ _ _)
        split
        · exact Heartbeats.renews_observeAll _ _ _ _
        · exact hsame

/-- So do ticks, whose ever they are. -/
theorem leavesLife_beat (c : Cluster η ω) (n m : NodeName) : c.LeavesLife n (c.beat m) :=
  ⟨rfl, settings_beat c m n, Heartbeats.renews_heartbeat _ _ _ _⟩

end Cluster

/-! ## In office -/

/-- A key is given to a node if the table can be reached and no other node holds the key. -/
theorem LeaseTable.acquire_of_free {t : LeaseTable} {key : String} {node : NodeId}
    {span now : Time} (hup : t.up = true)
    (hfree : ∀ lease, t.leases.get? key = some lease →
      lease.holder = node ∨ lease.expiresAt ≤ now) :
    t.acquire key node span now =
      .ok (true, { t with leases := t.leases.insert key ⟨node, now.plus span⟩ }) := by
  unfold acquire
  rw [hup, Bool.not_true, if_neg Bool.false_ne_true]
  split
  · next lease hlease =>
    refine if_neg fun hheld => ?_
    rcases hfree lease hlease with hown | hover
    · exact hheld.1 hown
    · exact Nat.not_lt.mpr hover hheld.2
  · rfl

namespace Cluster

variable {η ω : Type} {c d : Cluster η ω} {n m : NodeName}

/-- Whether nobody else has the coordinator's lease, and the node can get it. -/
structure Uncontended (n : NodeName) (c : Cluster η ω) : Prop where
  elected : ∃ leads termEnds, (c.node n).coordinator = .elected leads termEnds
  up : c.leases.up = true
  lease : ∀ lease, c.leases.leases.get? coordinatorKey = some lease →
    lease.holder = (c.node n).id ∨ lease.expiresAt ≤ c.clock

/-- Whether a step of the others leaves the coordinator's lease to a node that has it. -/
structure LeavesOffice (n : NodeName) (c d : Cluster η ω) : Prop where
  clock : d.clock = c.clock
  settings : (d.node n).settings = (c.node n).settings
  coordinator : (d.node n).coordinator = (c.node n).coordinator
  up : d.leases.up = c.leases.up
  lease : d.leases.leases.get? coordinatorKey = c.leases.leases.get? coordinatorKey

/-- Whether a node has the coordinator's lease, and the term that began with its last tick, a period
before the next one. -/
structure InOffice (n : NodeName) (s : Settings) (period : Time) (c : Cluster η ω) (due : Time) :
    Prop where
  settings : (c.node n).settings = s
  punctual : c.clock ≤ due
  term : (c.node n).coordinator = .elected true (Time.plus (due - period) s.term)
  up : c.leases.up = true
  lease : ∃ expiry, c.leases.leases.get? coordinatorKey = some ⟨(c.node n).id, expiry⟩

/-- Housekeeping has nothing to do with leases. -/
theorem leavesOffice_housekeep (c : Cluster η ω) (n m : NodeName) (task : Task) :
    c.LeavesOffice n (c.housekeep m task).2 := by
  cases task with
  | job job => exact ⟨rfl, rfl, rfl, rfl, rfl⟩
  | loadImmediate =>
      refine ⟨rfl, (c.leavesLife_housekeep n m .loadImmediate).settings, ?_, rfl, rfl⟩
      simp only [housekeep, modifyTodo, modifyScheduler, node_modifyNode]
      split
      · next h => subst h; rfl
      · rfl
  | upgradeJobs => exact ⟨rfl, rfl, rfl, rfl, rfl⟩
  | checkStaleNodes => exact ⟨rfl, rfl, rfl, rfl, rfl⟩

/-- The lease is granted to a node that nobody contends with, and its term begins. -/
theorem Uncontended.beat (h : c.Uncontended n) :
    c.beat n = { c with
        heartbeats := c.heartbeats.heartbeat (c.node n).id c.clock
        leases := { c.leases with
          leases := c.leases.leases.insert coordinatorKey
            ⟨(c.node n).id, c.clock.plus (c.node n).settings.lease.wordMillis⟩ } }.setNode n
      { c.node n with
        coordinator := .elected true (c.clock.plus (c.node n).settings.term) } := by
  obtain ⟨leads, termEnds, helected⟩ := h.elected
  have hnode : ({ c with heartbeats := c.heartbeats.heartbeat (c.node n).id c.clock } :
      Cluster η ω).node n = c.node n := rfl
  simp only [Cluster.beat, refreshCoordinator, hnode, helected, Coordinator.refresh,
    LeaseTable.acquire_of_free h.up h.lease]
  rfl

/-- The term of a node in office begins with its tick. -/
theorem Uncontended.inOffice {s : Settings} (h : c.Uncontended n)
    (hs : (c.node n).settings = s) (period : Time) :
    (c.beat n).InOffice n s period (c.clock + period) where
  settings := (settings_beat c n n).trans hs
  punctual := Nat.le_add_right _ _
  term := by rw [h.beat, node_setNode, if_pos rfl, hs, Nat.add_sub_cancel]
  up := by
    rw [h.beat]
    exact h.up
  lease := by
    have hid : ((c.beat n).node n).id = (c.node n).id :=
      congrArg Settings.nodeId (settings_beat c n n)
    rw [hid, h.beat]
    exact ⟨_, (Table.get?_insert _ _ _ _).trans (if_pos rfl)⟩

/-- A node in office can renew its lease, as it holds it itself. -/
theorem InOffice.uncontended {s : Settings} {period due : Time} (h : c.InOffice n s period due) :
    c.Uncontended n where
  elected := ⟨_, _, h.term⟩
  up := h.up
  lease := by
    intro lease hlease
    obtain ⟨expiry, hown⟩ := h.lease
    rw [hown] at hlease
    obtain rfl := Option.some.inj hlease
    exact .inl rfl

/-- The lease is renewed with every tick, and nobody takes it in between. -/
theorem Beats.inOffice {s : Settings} {period due : Time} {start : Cluster η ω}
    (h : Beats (LeavesOffice n) n period start c due) (hs : (start.node n).settings = s)
    (hstart : start.Uncontended n) : c.InOffice n s period due := by
  induction h with
  | first => exact hstart.inOffice hs period
  | wait h clock hforward hdue ih => exact ⟨ih.settings, hdue, ih.term, ih.up, ih.lease⟩
  | tick h hdue ih => exact hdue ▸ ih.uncontended.inOffice ih.settings period
  | meanwhile h hothers ih =>
      have hid := congrArg Settings.nodeId hothers.settings
      refine ⟨hothers.settings.trans ih.settings, hothers.clock ▸ ih.punctual,
        hothers.coordinator.trans ih.term, hothers.up.trans ih.up, ?_⟩
      obtain ⟨expiry, hlease⟩ := ih.lease
      exact ⟨expiry, by rw [hothers.lease, hlease, Node.id, Node.id, hothers.settings]⟩

/-- A node in office stays there until its next tick, if its term lasts longer than that and 64 bits
can tell its end. -/
theorem InOffice.coordinates {s : Settings} {period due : Time} (h : c.InOffice n s period due)
    (hterm : period < s.term) (hfits : due - period + s.term < Text.wordLimit) :
    c.coordinates n = true := by
  rw [Cluster.coordinates, h.term, Time.plus_of_lt hfits]
  refine (Coordinator.holds_iff _ _ _).mpr ⟨rfl, Nat.lt_of_le_of_lt h.punctual ?_⟩
  exact Nat.lt_of_le_of_lt (Nat.le_add_of_sub_le (Nat.le_refl _)) (Nat.add_lt_add_left hterm _)

end Cluster

/-! ## Settings for punctual nodes -/

namespace Settings

variable {η ω : Type}

/-- Whether a node with the settings is at no moment stale to anybody, from its first tick on, if it
ticks on time with the jitter. -/
def StaysAlive (η ω : Type) (s : Settings) (jitter : Nat) : Prop :=
  ∀ (n : NodeName) (start c : Cluster η ω) (due : Time) (observer : NodeId),
    (start.node n).settings = s →
    Cluster.Beats (Cluster.LeavesLife n) n (s.period jitter) start c due →
    s.nodeId ∉ c.heartbeats.staleNodes c.clock s.stale.wordMillis observer

/-- Whether a node with the settings takes itself for the coordinator at every moment, from its
first tick on, if it ticks on time with the jitter and nobody contends with it. The clock has 64
bits: they can tell the end of the term that began with the last tick. -/
def StaysInOffice (η ω : Type) (s : Settings) (jitter : Nat) : Prop :=
  ∀ (n : NodeName) (start c : Cluster η ω) (due : Time), (start.node n).settings = s →
    start.Uncontended n →
    Cluster.Beats (Cluster.LeavesOffice n) n (s.period jitter) start c due →
    due - s.period jitter + s.term < Text.wordLimit →
    c.coordinates n = true

/-- A node with the settings that is alone in its cluster. -/
def hermit [Inhabited ω] (η : Type) (s : Settings) : Cluster η ω where
  clock := 0
  nodes := (∅ : Table NodeName (Node η)).insert "hermit" (Node.ofSettings s)
  outside := default

section Hermit

variable [Inhabited ω] (s : Settings) (others : Cluster η ω → Cluster η ω → Prop) (period : Time)

/-- The only node of its cluster has the settings it was made with. -/
theorem node_hermit : (s.hermit η : Cluster η ω).node "hermit" = Node.ofSettings s := by
  rw [Cluster.node, hermit, Table.get?_insert, if_pos rfl]
  rfl

/-- Nobody contends with the only node of a cluster. -/
theorem uncontended_hermit : (s.hermit η : Cluster η ω).Uncontended "hermit" where
  elected := ⟨false, 0, by rw [node_hermit]; rfl⟩
  up := rfl
  lease := by
    intro lease hlease
    cases hlease

/-- The hermit has ticked once and waits for the next tick. -/
theorem beats_hermit :
    Cluster.Beats others "hermit" period (s.hermit η : Cluster η ω)
      { (s.hermit η : Cluster η ω).beat "hermit" with clock := period } period := by
  have hfirst : Cluster.Beats others "hermit" period (s.hermit η : Cluster η ω)
      ((s.hermit η).beat "hermit") (0 + period) := .first
  rw [Nat.zero_add] at hfirst
  exact hfirst.wait period (Nat.zero_le period) (Nat.le_refl period)

end Hermit

/-- A node stays alive if it ticks before the span of silence is over, and not otherwise. -/
theorem staysAlive_iff [Inhabited ω] (s : Settings) (jitter : Nat) :
    s.StaysAlive η ω jitter ↔ s.period jitter ≤ s.stale.wordMillis := by
  constructor
  · intro halive
    have hnode : ((s.hermit η : Cluster η ω).node "hermit") = Node.ofSettings s := s.node_hermit
    have hlast : ((s.hermit η : Cluster η ω).beat "hermit").heartbeats.last? s.nodeId = some 0 := by
      rw [Cluster.heartbeats_beat, Heartbeats.last?_heartbeat, hnode]
      exact if_pos rfl
    refine Nat.le_of_not_lt fun hlate => ?_
    refine halive "hermit" _ _ _ ⟨s.nodeId.text ++ "?"⟩ (congrArg Node.settings hnode)
      (s.beats_hermit _ _) (Heartbeats.mem_staleNodes ?_ hlast ?_)
    · intro heq
      simpa using congrArg (fun node => node.text.length) heq
    · rwa [Nat.zero_add]
  · intro hspan n start c due observer hs hbeats
    exact (hbeats.heard hs).not_stale hspan observer

/-- A node stays in office if it ticks before its term is over, and not otherwise. -/
theorem staysInOffice_iff [Inhabited ω] (s : Settings) (jitter : Nat) :
    s.StaysInOffice η ω jitter ↔ s.period jitter < s.term := by
  constructor
  · intro hoffice
    have hnode : ((s.hermit η : Cluster η ω).node "hermit") = Node.ofSettings s := s.node_hermit
    have hfits : s.term < Text.wordLimit := Nat.lt_of_le_of_lt (Nat.sub_le _ _) s.lease.wordMillis_lt
    have hholds := hoffice "hermit" _ _ _ (congrArg Node.settings hnode) s.uncontended_hermit
      (s.beats_hermit _ _) (by rwa [Nat.sub_self, Nat.zero_add])
    have hoffice : (((s.hermit η : Cluster η ω).beat "hermit").node "hermit").coordinator =
        .elected true s.term := by
      rw [s.uncontended_hermit.beat, Cluster.node_setNode, if_pos rfl, hnode]
      have hsum : Time.plus 0 s.term = 0 + s.term := Time.plus_of_lt (by rwa [Nat.zero_add])
      exact congrArg (Coordinator.elected true) (hsum.trans (Nat.zero_add s.term))
    have hterm : (Coordinator.elected true s.term).holds (s.period jitter) = true :=
      hoffice ▸ hholds
    exact ((Coordinator.holds_iff _ _ _).mp hterm).2
  · intro hterm n start c due hs hstart hbeats hfits
    exact (hbeats.inOffice hs hstart).coordinates hterm hfits

/-- What holds below a bound for every jitter holds for the largest one. -/
theorem forall_period_lt_iff (s : Settings) (bound : Nat) :
    (∀ jitter < s.jitterSpread, s.period jitter < bound) ↔
      s.heartbeat.millis + s.jitterSpread ≤ bound := by
  have hspread : 0 < s.jitterSpread := Nat.le_max_left _ _
  constructor
  · intro h
    have hlast : s.heartbeat.millis + (s.jitterSpread - 1) < bound :=
      h (s.jitterSpread - 1) (Nat.sub_lt hspread Nat.one_pos)
    omega
  · intro h jitter hjitter
    exact Nat.lt_of_lt_of_le (Nat.add_lt_add_left hjitter _) h

/-- The default heartbeats, with a span of silence and a lease that are a millisecond longer. -/
def tight : Settings := { stale := ⟨5001⟩, lease := ⟨5001⟩ }

end Settings

end JobCluster
