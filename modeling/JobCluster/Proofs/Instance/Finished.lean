import JobCluster.Proofs.Instance.Draft
/-!
# Finished process instances

A process instance that has come to its end is to keep its state, and one that is deleted is to stay
away. Every write is checked, but against the draft of its transaction; the commit applies the draft
whatever has become of the instance meanwhile. So this file compares what a transaction found when
it first wrote an instance with what its commit finds.

Main results:

- `Interplay.instance?_step`: commits are all that changes a committed instance;
- `Interplay.lasts_iff`: a commit spares finished and deleted instances exactly if it is not
  outdated, and a history without outdated commits never changes their state;
- `Interplay.overturned_by_late_commit`: a finished and a deleted instance that are overturned.
-/

namespace JobCluster

variable {η ω : Type}

namespace Interplay

variable {app : Application η ω} {o : Interplay η ω} {id : InstanceId}

/-! ## Commits -/

/-- The transaction whose writes a move applies. -/
def commits? (o : Interplay η ω) (m : Move η ω) : Option TxId :=
  match o.carries? m with
  | some (_, .after true, .applyWrites tx) => some tx
  | _ => none

/-- What a callback makes of a committed instance: a commit makes it what its transaction sees. -/
theorem get?_carryOut (c : Cluster η ω) (thread : Thread) (phase : Phase) (callback : Callback η)
    (id : InstanceId) :
    (c.carryOut app thread phase callback).instances.get? id =
      match phase, callback with
      | .after true, .applyWrites tx => c.instances.view tx id
      | _, _ => c.instances.get? id := by
  rw [Cluster.carryOut_instances]
  cases callback with
  | applyWrites tx =>
      cases phase with
      | before => rfl
      | after committed =>
          cases committed with
          | false => rfl
          | true => exact InstanceStore.get?_complete c.instances tx true id
  | publish n plan | queue n info | drop n j armed | withdraw n j | custom script =>
      rcases phase with _ | _ | _ <;> rfl

/-- A committed instance changes only when a transaction is committed, and then it becomes what that
transaction sees of it. -/
theorem instance?_step (o : Interplay η ω) (m : Move η ω) (id : InstanceId) :
    (o.step app m).instance? id = match o.commits? m with
      | some tx => o.cluster.instances.view tx id
      | none => o.instance? id := by
  have houtcome := outcome_step app o m
  generalize o.step app m = p at houtcome
  cases houtcome with
  | idle hidle => simp [commits?, hidle]
  | refused n thread resource => rfl
  | begun n thread hbegin =>
      exact congrArg (·.get? id) (Cluster.begin_eq_ok hbegin).instances
  | @worked tx a t ht =>
      have hinstances := (a.effect_perform tx o.cluster).instances
      show (a.perform tx o.cluster).2.instances.get? id = o.instance? id
      rw [hinstances]
      cases a.write? tx o.cluster.instances <;> rfl
  | departed thread request ht hround hc htransactions =>
      exact congrArg (·.get? id) hc.instances
  | @before i d callback rest hd hround =>
      have hcarries : o.carries? (.advance i) = some (d, .before, callback) :=
        carries?_eq_some.mpr ⟨i, rfl, hd, by simp [Departure.upcoming?, hround]⟩
      simp only [commits?, hcarries]
      exact get?_carryOut o.cluster d.thread .before callback id
  | decided i committed hd hround hc htransactions =>
      have hnone : o.carries? (.advance i) = none := by
        simp [carries?, hd, Departure.upcoming?, hround]
      simp only [commits?, hnone]
      exact congrArg (·.get? id) hc.instances
  | @after i committed d callback rest hd hround =>
      have hcarries := carries?_after_eq_some.mpr ⟨i, rest, rfl, hd, hround⟩
      have hget : (o.cluster.carryOut app d.thread (.after committed) callback).instances.get? id =
          _ := get?_carryOut o.cluster d.thread (.after committed) callback id
      simp only [commits?, hcarries]
      refine hget.trans ?_
      cases committed with
      | false => rfl
      | true => cases callback <;> rfl
  | store a | registry n a => rfl
  | elsewhere what => exact congrArg (·.get? id) (what.instances o.cluster)

/-! ## Outdated commits -/

/-- Whether a move keeps the state of an instance that has come to its end, and keeps an instance
away that is gone: unless it commits a transaction that has deleted, or created, the instance. -/
structure Lasts (app : Application η ω) (id : InstanceId) (o : Interplay η ω) (m : Move η ω) :
    Prop where
  finished : ∀ p, o.instance? id = some p → p.isFinished = true →
    (∃ q, (o.step app m).instance? id = some q ∧ q.state = p.state) ∨
      ∃ tx, o.commits? m = some tx ∧ o.deletes tx id = true
  gone : ∀ q, o.instance? id = none → (o.step app m).instance? id = some q →
    ∃ tx, o.commits? m = some tx ∧ o.creates tx id = true

/-- Whether the draft of a transaction leaves an instance that has come to its end in another state,
or brings back one that is gone, without the transaction having deleted, or created, it. -/
def overturns (o : Interplay η ω) (tx : TxId) (id : InstanceId) : Bool :=
  match o.instance? id, o.cluster.instances.view tx id with
  | some p, some q => p.isFinished && decide (q.state ≠ p.state) && !o.deletes tx id
  | none, some _ => !o.creates tx id
  | _, none => false

/-- Whether a move commits a transaction that finds an instance in another state than at the time at
which it first wrote it, and overturns that state. -/
def outdated (id : InstanceId) (o : Interplay η ω) (m : Move η ω) : Bool :=
  (o.commits? m).any fun tx => o.overturns tx id && (o.base? tx id).any fun base =>
    decide (base.map ProcessInstance.state ≠ (o.instance? id).map ProcessInstance.state)

/-- A commit is outdated for an instance if it overturns a state that was not the base of its
write. -/
theorem outdated_eq_true {m : Move η ω} :
    o.outdated id m = true ↔ ∃ tx, o.commits? m = some tx ∧ o.overturns tx id = true ∧
      ∃ base, o.base? tx id = some base ∧
        base.map ProcessInstance.state ≠ (o.instance? id).map ProcessInstance.state := by
  simp [outdated, Option.any_eq_true]

/-- What a commit does to finished and deleted instances. -/
theorem lasts_iff_of_commits {m : Move η ω} {tx : TxId} (hcommits : o.commits? m = some tx) :
    o.Lasts app id m ↔
      (∀ p, o.instance? id = some p → p.isFinished = true →
        (∃ q, o.cluster.instances.view tx id = some q ∧ q.state = p.state) ∨
          o.deletes tx id = true) ∧
      ∀ q, o.instance? id = none → o.cluster.instances.view tx id = some q →
        o.creates tx id = true := by
  have hstep : (o.step app m).instance? id = o.cluster.instances.view tx id := by
    rw [instance?_step, hcommits]
  have hcommit : ∀ {P : TxId → Prop}, (∃ other, o.commits? m = some other ∧ P other) ↔ P tx := by
    intro P
    simp [hcommits]
  rw [← hstep]
  constructor
  · exact fun h => ⟨fun p hp hfinished => (h.finished p hp hfinished).imp_right hcommit.mp,
      fun q hgone hq => hcommit.mp (h.gone q hgone hq)⟩
  · exact fun h => ⟨fun p hp hfinished => (h.1 p hp hfinished).imp_right hcommit.mpr,
      fun q hgone hq => hcommit.mpr (h.2 q hgone hq)⟩

namespace Drafted

/-- What a transaction is about to commit, if it has written the instance. -/
theorem base?_of_view {tx : TxId} (h : Drafted o)
    (hne : o.cluster.instances.view tx id ≠ o.instance? id) :
    o.cluster.instances.writes tx = o.writes tx ∧ ∃ base, o.base? tx id = some base := by
  have hsame : o.cluster.instances.writes tx = o.writes tx := by
    rcases h.drafts tx with hsame | ⟨hnil, _⟩
    · exact hsame
    · refine absurd ?_ hne
      rw [InstanceStore.view_eq_seen]
      rw [hnil]
      rfl
  refine ⟨hsame, ?_⟩
  cases hbase : o.base? tx id with
  | some base => exact ⟨base, rfl⟩
  | none =>
      refine absurd ?_ hne
      rw [InstanceStore.view_eq_seen]
      rw [hsame]
      exact InstanceStore.seen_of_forall_ne (base?_eq_none.mp hbase)

/-- Only a deletion makes a transaction see nothing where there is something. -/
theorem deletes_of_view {tx : TxId} (h : Drafted o) {p : ProcessInstance}
    (hp : o.instance? id = some p) (hview : o.cluster.instances.view tx id = none) :
    o.deletes tx id = true := by
  have hne : o.cluster.instances.view tx id ≠ o.instance? id := by
    rw [hview, hp]
    exact (Option.some_ne_none p).symm
  have hbase : o.cluster.instances.get? id ≠ none := fun hnone => by
    rw [instance?, hnone] at hp
    cases hp
  have hmem := InstanceStore.delete_mem_of_seen hbase (InstanceStore.view_eq_seen _ _ _ ▸ hview)
  rw [(h.base?_of_view hne).1] at hmem
  exact decide_eq_true hmem

/-- A move spares finished and deleted instances exactly if it commits no transaction that overturns
their state. -/
theorem lasts_iff_not_overturns (h : Drafted o) (m : Move η ω) :
    o.Lasts app id m ↔ ∀ tx, o.commits? m = some tx → o.overturns tx id = false := by
  cases hcommits : o.commits? m with
  | none =>
      refine iff_of_true ?_ fun tx htx => by cases htx
      have hstep : (o.step app m).instance? id = _ := o.instance?_step m id
      rw [hcommits] at hstep
      refine ⟨fun p hp _ => .inl ⟨p, hstep.trans hp, rfl⟩, fun q hgone hq => ?_⟩
      rw [hstep, hgone] at hq
      cases hq
  | some tx =>
      rw [lasts_iff_of_commits hcommits]
      simp only [Option.some.injEq, forall_eq']
      unfold overturns
      cases hinstance : o.instance? id with
      | none => cases o.cluster.instances.view tx id <;> simp
      | some p =>
          cases hview : o.cluster.instances.view tx id with
          | some q =>
              by_cases hstate : q.state = p.state <;>
                by_cases hfinished : p.isFinished = true <;> simp [hstate, hfinished]
          | none => simp [h.deletes_of_view hinstance hview]

/-- A transaction overturns the state of an instance only if it first wrote the instance in another
state. -/
theorem base?_of_overturns {tx : TxId} (h : Drafted o) (hoverturns : o.overturns tx id = true) :
    ∃ base, o.base? tx id = some base ∧
      base.map ProcessInstance.state ≠ (o.instance? id).map ProcessInstance.state := by
  unfold overturns at hoverturns
  split at hoverturns
  · next p q hp hq =>
    simp only [Bool.and_eq_true, decide_eq_true_eq, Bool.not_eq_true'] at hoverturns
    obtain ⟨⟨hfinished, hstate⟩, hdeletes⟩ := hoverturns
    have hne : o.cluster.instances.view tx id ≠ o.instance? id := by
      rw [hp, hq]
      exact fun hsame => hstate (congrArg ProcessInstance.state (Option.some.inj hsame))
    obtain ⟨hwrites, base, hbase⟩ := h.base?_of_view hne
    refine ⟨base, hbase, fun hsame => ?_⟩
    rw [hp] at hsame
    obtain ⟨b, rfl, hb⟩ := Option.map_eq_some_iff.mp hsame
    have hbfinished : b.isFinished = true := by
      rw [ProcessInstance.isFinished, hb]
      exact hfinished
    obtain ⟨r, hr, hkept⟩ := h.kept tx id b hbase hbfinished hdeletes
    rw [InstanceStore.view_eq_seen] at hq
    rw [hwrites, seen_of_base? hbase _ (some b), hr] at hq
    cases hq
    exact hstate (hkept.trans hb)
  · next q hgone hq =>
    have hne : o.cluster.instances.view tx id ≠ o.instance? id := by
      rw [hgone, hq]
      exact Option.some_ne_none q
    obtain ⟨_, base, hbase⟩ := h.base?_of_view hne
    refine ⟨base, hbase, fun hsame => ?_⟩
    rw [hgone] at hsame
    rw [Option.map_none, Option.map_eq_none_iff] at hsame
    rw [hsame] at hbase
    rw [h.created tx id hbase] at hoverturns
    cases hoverturns
  · cases hoverturns

/-- A move spares finished and deleted instances exactly if it is not an outdated commit. -/
theorem lasts_iff_not_outdated (h : Drafted o) (m : Move η ω) :
    o.Lasts app id m ↔ o.outdated id m = false := by
  rw [h.lasts_iff_not_overturns, Bool.eq_false_iff, Ne, outdated_eq_true]
  constructor
  · rintro hspares ⟨tx, htx, hoverturns, _⟩
    rw [hspares tx htx] at hoverturns
    cases hoverturns
  · intro hnone tx htx
    refine Bool.eq_false_iff.mpr fun hoverturns => hnone ?_
    exact ⟨tx, htx, hoverturns, h.base?_of_overturns hoverturns⟩

end Drafted

/-! ## Histories -/

/-- Whether a move commits a transaction that has deleted an instance. -/
def removes (id : InstanceId) (o : Interplay η ω) (m : Move η ω) : Bool :=
  (o.commits? m).any fun tx => o.deletes tx id

/-- Whether a move commits a transaction that has created an instance. -/
def founds (id : InstanceId) (o : Interplay η ω) (m : Move η ω) : Bool :=
  (o.commits? m).any fun tx => o.creates tx id

/-- Without outdated commits, a finished instance keeps its state until it is deleted. -/
theorem finished_play (h : Drafted o) (ho : Orderly o) {moves : List (Move η ω)}
    (hcurrent : Throughout app (fun o m => o.outdated id m = false) o moves)
    (hremoves : Throughout app (fun o m => o.removes id m = false) o moves) {p : ProcessInstance}
    (hp : o.instance? id = some p) (hfinished : p.isFinished = true) :
    ∃ q, (o.play app moves).instance? id = some q ∧ q.state = p.state := by
  induction moves generalizing o p with
  | nil => exact ⟨p, hp, rfl⟩
  | cons m rest ih =>
      have hlasts : o.Lasts app id m := (h.lasts_iff_not_outdated m).mpr hcurrent.1
      rcases hlasts.finished p hp hfinished with ⟨q, hq, hstate⟩ | ⟨tx, htx, hdeletes⟩
      · have hqfinished : q.isFinished = true := by
          rw [ProcessInstance.isFinished, hstate]
          exact hfinished
        obtain ⟨r, hr, hsame⟩ := ih (h.step ho m) (ho.step m) hcurrent.2 hremoves.2 hq hqfinished
        exact ⟨r, hr, hsame.trans hstate⟩
      · have hremove := hremoves.1
        simp [removes, htx, hdeletes] at hremove

/-- Without outdated commits, an instance that is gone stays away until it is created. -/
theorem gone_play (h : Drafted o) (ho : Orderly o) {moves : List (Move η ω)}
    (hcurrent : Throughout app (fun o m => o.outdated id m = false) o moves)
    (hfounds : Throughout app (fun o m => o.founds id m = false) o moves)
    (hgone : o.instance? id = none) : (o.play app moves).instance? id = none := by
  induction moves generalizing o with
  | nil => exact hgone
  | cons m rest ih =>
      refine ih (h.step ho m) (ho.step m) hcurrent.2 hfounds.2 ?_
      have hlasts : o.Lasts app id m := (h.lasts_iff_not_outdated m).mpr hcurrent.1
      cases hnext : (o.step app m).instance? id with
      | none => rfl
      | some q =>
          obtain ⟨tx, htx, hcreates⟩ := hlasts.gone q hgone hnext
          have hfound := hfounds.1
          simp [founds, htx, hcreates] at hfound

/-- In a history of any number of overlapping transactions, a move keeps the state of every finished
instance that it does not delete, and keeps away every instance that is gone and that it does not
create, exactly if it is not an outdated commit. So if no later commit is outdated, a finished
instance has the same state until its deletion is committed, and a deleted instance stays away until
its creation is. -/
theorem lasts_iff (app : Application η ω) {c : Cluster η ω} (hc : c.AtRest)
    (moves : List (Move η ω)) (id : InstanceId) :
    let o := (⟨c, [], []⟩ : Interplay η ω).play app moves
    (∀ m, o.Lasts app id m ↔ o.outdated id m = false) ∧
      ∀ later, Throughout app (fun o m => o.outdated id m = false) o later →
        (Throughout app (fun o m => o.removes id m = false) o later →
          ∀ p, o.instance? id = some p → p.isFinished = true →
            ∃ q, (o.play app later).instance? id = some q ∧ q.state = p.state) ∧
        (Throughout app (fun o m => o.founds id m = false) o later → o.instance? id = none →
          (o.play app later).instance? id = none) := by
  intro o
  have horderly : Orderly o := .play hc moves
  have hdrafted : Drafted o := .play hc moves
  refine ⟨hdrafted.lasts_iff_not_outdated, fun later hcurrent => ⟨?_, ?_⟩⟩
  · exact fun hremoves p hp hfinished =>
      finished_play hdrafted horderly hcurrent hremoves hp hfinished
  · exact fun hfounds hgone => gone_play hdrafted horderly hcurrent hfounds hgone

/-- A process instance. -/
def sample : ProcessInstance := { id := ⟨"p"⟩, process := "order", lastActive := 0 }

/-- A transaction creates an instance and brings it to its end. -/
def completion : List (Move Unit Unit) :=
  [.begin "a" .main, .work ⟨0⟩ (.createInstance sample),
    .work ⟨0⟩ (.setInstanceState ⟨"p"⟩ .completedOk 1), .depart ⟨0⟩ .main .commit, .advance 0,
    .advance 0]

/-- Two transactions overlap: one sets a key of the instance, the other tries to activate it. -/
def followUp : List (Move Unit Unit) :=
  [.begin "a" .main, .begin "a" (.named "t"), .work ⟨1⟩ (.setInstanceKey ⟨"p"⟩ "c" "v"),
    .work ⟨2⟩ (.setInstanceState ⟨"p"⟩ .active 2), .depart ⟨2⟩ (.named "t") .commit, .advance 1,
    .depart ⟨1⟩ .main .commit, .advance 2, .advance 2]

/-- The finished instance keeps its state. -/
theorem lasts_iff_followUp :
    ∃ q, ((playBlank completion).play .silent followUp).instance? ⟨"p"⟩ = some q ∧
      q.state = .completedOk := by
  have hlasts := lasts_iff .silent Cluster.atRest_blank completion ⟨"p"⟩
  obtain ⟨q, hq, hstate⟩ := (hlasts.2 followUp (by decide)).1 (by decide)
    (sample.transition .completedOk 1) rfl rfl
  exact ⟨q, hq, hstate⟩

/-- A transaction creates an instance, and two others overlap. One sets a key of the instance before
the other ends or deletes it and is committed; then the first is committed. -/
def straggle (deed : WorkCall Unit) : List (Move Unit Unit) :=
  [.begin "a" .main, .work ⟨0⟩ (.createInstance sample),
    .work ⟨0⟩ (.setInstanceState ⟨"p"⟩ .active 1), .depart ⟨0⟩ .main .commit, .advance 0,
    .advance 0, .begin "a" (.named "s"), .work ⟨1⟩ (.setInstanceKey ⟨"p"⟩ "c" "v"),
    .begin "a" (.named "t"), .work ⟨2⟩ deed, .depart ⟨2⟩ (.named "t") .commit, .advance 1,
    .advance 1, .depart ⟨1⟩ (.named "s") .commit, .advance 2]

/-- The late commit makes a finished instance active again, and brings a deleted one back. -/
theorem overturned_by_late_commit :
    let ended := playBlank (straggle (.setInstanceState ⟨"p"⟩ .completedOk 2))
    let deleted := playBlank (straggle (.deleteInstance ⟨"p"⟩))
    (ended.instance? ⟨"p"⟩).map ProcessInstance.state = some .completedOk ∧
      ended.commits? (.advance 2) = some ⟨1⟩ ∧ ended.deletes ⟨1⟩ ⟨"p"⟩ = false ∧
      ((ended.step .silent (.advance 2)).instance? ⟨"p"⟩).map ProcessInstance.state =
        some .active ∧
      deleted.instance? ⟨"p"⟩ = none ∧
      deleted.commits? (.advance 2) = some ⟨1⟩ ∧ deleted.creates ⟨1⟩ ⟨"p"⟩ = false ∧
      ((deleted.step .silent (.advance 2)).instance? ⟨"p"⟩).isSome = true := by
  refine ⟨?_, ?_, ?_, ?_, ?_, ?_, ?_, ?_⟩
  · rfl
  · rfl
  · rfl
  · rfl
  · rfl
  · rfl
  · rfl
  · rfl

end Interplay

end JobCluster
