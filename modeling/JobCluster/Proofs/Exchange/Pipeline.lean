import JobCluster.Proofs.Exchange.Outcome
import JobCluster.Proofs.Exchange.Timeliness
import Mathlib.Data.List.Chain
/-!
# Pipelines

An exchange that is piped hands its outcome on when it is completed, and so does each one that
receives it. The pipes of a registry are any graph: they can meet, lead to nobody, or lead back.
Still the outcome takes one path through it, visits nobody twice, and leaves no half of an outcome
behind: whoever is reached is not finished and is completed at once, as it is still registered.

Main results:

- `Registry.Trail`: the path through the pipes, up to where it ends;
- `Registry.Receives`: what becomes of the exchanges on a path;
- `Registry.forward_trail`: handing on an outcome, one exchange after another;
- `Registry.complete_trail`: completing any registered exchange of a registry with any history.
-/

namespace JobCluster

/-- An exchange that has not ended and is not detached can be completed. -/
theorem Exchange.complete_of_unfinished {e : Exchange} {status : ExchangeStatus}
    (hstatus : status.isTerminal = true) (hunfinished : e.isTerminal = false)
    (hattached : e.detached = false) : e.complete status = .ok (.completed, { e with status }) := by
  simp [Exchange.complete, hstatus, hunfinished, hattached]

namespace Registry

variable {r s t : Registry} {status : ExchangeStatus} {steps slot : Nat} {path : List Nat}

/-! ## Paths through the pipes -/

/-- The slot of the registered exchange that the one in a slot is piped to. -/
def pipeTarget? (r : Registry) (slot : Nat) : Option Nat :=
  (r.exchange? slot).bind fun e =>
    match e.style with
    | .piped id => r.slots.get? id
    | .blocking | .async => none

/-- Whether a path follows the pipes from a slot as far as it goes: each of its exchanges is the
target of the one before and is not finished, and nobody comes twice. It ends because it is long
enough, or the last exchange is not piped to a registered one, or that one is finished, either
before or on the way. -/
structure Trail (r : Registry) (steps slot : Nat) (path : List Nat) : Prop where
  linked : (slot :: path).IsChain fun i j => r.pipeTarget? i = some j
  unfinished : ∀ i ∈ path, r.isOver i = false
  nodup : (slot :: path).Nodup
  length : path.length ≤ steps
  ends : path.length = steps ∨ ∀ next, r.pipeTarget? (path.getLastD slot) = some next →
    r.isOver next = true ∨ next ∈ slot :: path

/-- Whether a registry comes of another one as the exchanges on a path receive an outcome and are
completed, and nothing else happens. -/
structure Receives (r : Registry) (source : Exchange) (status : ExchangeStatus) (path : List Nat)
    (s : Registry) : Prop where
  rest : s = { r with exchanges := s.exchanges }
  exchanges : ∀ i, s.exchange? i = (r.exchange? i).map fun e =>
    if i ∈ path then { e.takeOutcome source with status } else e

/-- A status that nobody is to receive changes nothing. -/
theorem receives_nil (r : Registry) (source : Exchange) (status : ExchangeStatus) :
    r.Receives source status [] r where
  rest := rfl
  exchanges i := by simp

/-- The path is empty if there is nowhere to go. -/
theorem trail_nil (h : steps = 0 ∨ ∀ next, r.pipeTarget? slot = some next → r.isOver next = true) :
    r.Trail steps slot [] where
  linked := .singleton slot
  unfinished := by simp
  nodup := by simp
  length := Nat.zero_le steps
  ends := h.imp Eq.symm fun h next hnext => .inl (h next hnext)

/-! ## One exchange after another -/

/-- The pipes stay as they are when an exchange is completed. -/
theorem pipeTarget?_setExchange {e f : Exchange} (he : r.exchange? slot = some e)
    (hstyle : f.style = e.style) (i : Nat) :
    (r.setExchange slot f).pipeTarget? i = r.pipeTarget? i := by
  rw [pipeTarget?, pipeTarget?, exchange?_setExchange he]
  by_cases hi : slot = i
  · subst hi
    rw [if_pos rfl, he, Option.bind_some, Option.bind_some, hstyle]
    rfl
  · rw [if_neg hi]
    rfl

/-- An exchange that is completed is finished, and nobody else is by that. -/
theorem isOver_setExchange {e f : Exchange} (he : r.exchange? slot = some e)
    (hover : f.isTerminal = true) (i : Nat) :
    (r.setExchange slot f).isOver i = (decide (slot = i) || r.isOver i) := by
  rw [isOver, isOver, exchange?_setExchange he]
  by_cases hi : slot = i <;> simp [hi, hover]

/-- Whoever is registered can be found, and is not detached. -/
theorem Tidy.find?_eq_some (h : r.Tidy) {id : ExchangeId} {target : Nat}
    (htarget : r.slots.get? id = some target) :
    ∃ e, r.find? id = some (target, e) ∧ r.exchange? target = some e ∧ e.detached = false := by
  obtain ⟨e, he, _, hattached⟩ := mark?_eq_some.mp (h id target htarget)
  refine ⟨e, ?_, he, hattached⟩
  simp [find?, htarget, he]

/-- A status goes no further than to a target that is finished, or if there is none. -/
theorem forward_of_stops (h : ∀ next, r.pipeTarget? slot = some next → r.isOver next = true) :
    forward status (steps + 1) slot r = r := by
  unfold forward
  split
  · rfl
  · next source hsource =>
    split
    · rfl
    · rfl
    · next id hstyle =>
      split
      · rfl
      · next next target hfind =>
        have htarget : r.pipeTarget? slot = some next := by
          rw [pipeTarget?, hsource, Option.bind_some, hstyle]
          exact (exchange?_of_lookup (r := r) (by rw [lookup, hfind])).1
        have hover : target.isTerminal = true := by
          rw [← isOver_of_exchange? (exchange?_of_find? hfind)]
          exact h next htarget
        rw [if_pos hover]

theorem forward_of_target (steps : Nat) (h : r.Tidy) (hstatus : status.isTerminal = true)
    {source : Exchange} (hsource : r.exchange? slot = some source) {target : Nat}
    (htarget : r.pipeTarget? slot = some target) (hunfinished : r.isOver target = false) :
    ∃ e, r.exchange? target = some e ∧ forward status (steps + 1) slot r =
      forward status steps target
        (r.setExchange target { e.takeOutcome source with status }) := by
  rw [pipeTarget?, hsource, Option.bind_some] at htarget
  split at htarget
  · next id hstyle =>
    obtain ⟨e, hfind, he, hattached⟩ := h.find?_eq_some htarget
    rw [isOver_of_exchange? he] at hunfinished
    have hcomplete : (e.takeOutcome source).complete status =
        .ok (.completed, { e.takeOutcome source with status }) :=
      Exchange.complete_of_unfinished hstatus hunfinished hattached
    refine ⟨e, he, ?_⟩
    rw [forward]
    simp only [hsource, hstyle, hfind, hunfinished, hcomplete, Bool.false_eq_true, if_false]
  · cases htarget
  · cases htarget

/-- A path does not depend on whether the exchange that it starts from is completed. -/
theorem Trail.of_setExchange {e f : Exchange} (h : (r.setExchange slot f).Trail steps slot path)
    (he : r.exchange? slot = some e) (hstyle : f.style = e.style) (hover : f.isTerminal = true) :
    r.Trail steps slot path where
  linked := by
    have hlinked := h.linked
    simp only [pipeTarget?_setExchange he hstyle] at hlinked
    exact hlinked
  unfinished := by
    intro i hi
    have hrest := h.unfinished i hi
    rw [isOver_setExchange he hover, Bool.or_eq_false_iff] at hrest
    exact hrest.2
  nodup := h.nodup
  length := h.length
  ends := by
    refine h.ends.imp id fun hends next hnext => ?_
    rw [← pipeTarget?_setExchange he hstyle] at hnext
    rcases hends next hnext with hdone | hmem
    · rw [isOver_setExchange he hover, Bool.or_eq_true, decide_eq_true_eq] at hdone
      rcases hdone with rfl | hdone
      · exact .inr List.mem_cons_self
      · exact .inl hdone
    · exact .inr hmem

/-- A path that starts from somebody who is not finished can be entered from somebody who is. -/
theorem Trail.cons {target : Nat} (h : r.Trail steps target path) (hover : r.isOver slot = true)
    (htarget : r.pipeTarget? slot = some target) (hunfinished : r.isOver target = false) :
    r.Trail (steps + 1) slot (target :: path) where
  linked := List.isChain_cons_cons.mpr ⟨htarget, h.linked⟩
  unfinished := List.forall_mem_cons.mpr ⟨hunfinished, h.unfinished⟩
  nodup := by
    have hall : ∀ i ∈ target :: path, r.isOver i = false :=
      List.forall_mem_cons.mpr ⟨hunfinished, h.unfinished⟩
    refine List.nodup_cons.mpr ⟨fun hmem => ?_, h.nodup⟩
    have hslot := hall slot hmem
    rw [hover] at hslot
    cases hslot
  length := Nat.succ_le_succ h.length
  ends := by
    refine h.ends.imp (congrArg (· + 1)) fun hends next hnext => ?_
    rw [List.getLastD_cons] at hnext
    exact (hends next hnext).imp id (List.mem_cons_of_mem slot)

/-- Whoever comes next on the path receives what the one before has received. -/
theorem Receives.cons {source e : Exchange} {target : Nat}
    (h : (r.setExchange target { e.takeOutcome source with status }).Receives
      { e.takeOutcome source with status } status path s)
    (he : r.exchange? target = some e) (hfresh : target ∉ path) :
    r.Receives source status (target :: path) s where
  rest := h.rest
  exchanges := by
    intro i
    rw [h.exchanges, exchange?_setExchange he]
    by_cases hi : target = i
    · subst hi
      simp [he, hfresh]
    · simp only [if_neg hi, List.mem_cons, Ne.symm hi, false_or]
      rfl

/-- An outcome is handed on along the pipes, from an exchange that was just completed. Nobody is
reached who is finished already, and so the path does not come back to an exchange on it. -/
theorem forward_trail (htidy : r.Tidy) (hstatus : status.isTerminal = true) {source : Exchange}
    (hsource : r.exchange? slot = some source) (hover : source.isTerminal = true) (steps : Nat) :
    ∃ path, r.Trail steps slot path ∧
      r.Receives source status path (forward status steps slot r) := by
  induction steps generalizing r slot source with
  | zero => exact ⟨[], trail_nil (.inl rfl), r.receives_nil source status⟩
  | succ steps ih =>
      by_cases hstops : ∀ next, r.pipeTarget? slot = some next → r.isOver next = true
      · refine ⟨[], trail_nil (.inr hstops), ?_⟩
        rw [forward_of_stops hstops]
        exact r.receives_nil source status
      · simp only [not_forall, Bool.not_eq_true] at hstops
        obtain ⟨target, htarget, hunfinished⟩ := hstops
        obtain ⟨e, he, hforward⟩ := forward_of_target steps htidy hstatus hsource htarget
          hunfinished
        have hamends : r.Amends (r.setExchange target { e.takeOutcome source with status }) :=
          amends_setExchange he rfl rfl
        obtain ⟨path, htrail, hreceives⟩ := ih (hamends.tidy htidy)
          ((exchange?_setExchange he _ target).trans (if_pos rfl)) hstatus
        have hdone : r.isOver slot = true := (isOver_of_exchange? hsource).trans hover
        rw [hforward]
        exact ⟨target :: path,
          (htrail.of_setExchange he rfl hstatus).cons hdone htarget hunfinished,
          hreceives.cons he (List.nodup_cons.mp htrail.nodup).1⟩

/-! ## Completion -/

/-- Completing a registered exchange that is not finished succeeds, in any registry and for any
terminal status. Its outcome takes one path through the pipes: nobody is on it twice or was
finished before, and it is not longer than sixteen exchanges. Everybody on it has the status and
the fault, the explanation and the failure of the first exchange; everybody else, and all of the
registry apart from its exchanges, is as before. -/
theorem complete_trail (hr : r.Unused) (history : List (Time × Dealing)) {id : ExchangeId}
    {e : Exchange} (hfind : (r.play history).find? id = some (slot, e))
    (hunfinished : e.isTerminal = false) (hstatus : status.isTerminal = true) :
    let s := r.play history
    ∃ path t, s.complete id status = .ok (.completed, t) ∧ s.Trail 16 slot path ∧
      t = { s with exchanges := t.exchanges } ∧
      ∀ i, t.exchange? i = (s.exchange? i).map fun f =>
        if i = slot then { f with status }
        else if i ∈ path then
          { f with status, fault := e.fault, explanation := e.explanation,
                   failureType := e.failureType }
        else f := by
  intro s
  have htidy : s.Tidy := (books_history hr.books history).tidy
  obtain ⟨hslot, he⟩ := exchange?_of_lookup (r := s) (by rw [lookup, hfind])
  obtain ⟨_, _, hsame, hattached⟩ := htidy.find?_eq_some hslot
  rw [he] at hsame
  obtain rfl := Option.some.inj hsame
  have hcompleted : s.complete id status = .ok (.completed,
      forward status 16 slot (s.setExchange slot { e with status })) := by
    have hfind : s.find? id = some (slot, e) := hfind
    simp only [complete, lookup, hfind, Bind.bind, Except.bind,
      Exchange.complete_of_unfinished hstatus hunfinished hattached]
    rfl
  have hamends : s.Amends (s.setExchange slot { e with status }) := amends_setExchange he rfl rfl
  obtain ⟨path, htrail, hreceives⟩ := forward_trail (hamends.tidy htidy) hstatus
    ((exchange?_setExchange he _ slot).trans (if_pos rfl)) hstatus 16
  refine ⟨path, _, hcompleted, htrail.of_setExchange he rfl hstatus, hreceives.rest, fun i => ?_⟩
  rw [hreceives.exchanges, exchange?_setExchange he]
  by_cases hi : slot = i
  · subst hi
    simp [he, (List.nodup_cons.mp htrail.nodup).1]
  · simp only [if_neg hi, if_neg (Ne.symm hi)]
    rfl

/-- Three exchanges are piped in a circle, and a fourth one into it. -/
def circle : List (Time × Dealing) :=
  [(1, .create ⟨"a"⟩ .myRole), (1, .create ⟨"b"⟩ .partnerRole), (1, .create ⟨"c"⟩ .partnerRole),
    (1, .create ⟨"d"⟩ .partnerRole), (2, .hold 0 (.set { style := some (.piped ⟨"b"⟩) })),
    (2, .hold 1 (.set { style := some (.piped ⟨"c"⟩) })),
    (2, .hold 2 (.set { style := some (.piped ⟨"a"⟩) })),
    (2, .hold 3 (.set { style := some (.piped ⟨"b"⟩), fault := some "denied" }))]

/-- The outcome goes once around the circle. -/
theorem complete_trail_circle :
    let s := vacant.play circle
    ∃ path t, s.complete ⟨"d"⟩ .completedWithFault = .ok (.completed, t) ∧ s.Trail 16 3 path ∧
      [0, 1, 2].map (fun i => (t.exchange? i).map fun e => (e.status, e.fault)) =
        List.replicate 3 (some (.completedWithFault, some "denied")) := by
  intro s
  have hfind : s.find? ⟨"d"⟩ = some (3,
      { id := ⟨"d"⟩, direction := .partnerRole, createdAt := 1, style := .piped ⟨"b"⟩,
        fault := some "denied" }) := by decide +kernel
  have hstatus : ExchangeStatus.completedWithFault.isTerminal = true := rfl
  obtain ⟨path, t, hcomplete, htrail, _⟩ := complete_trail unused_vacant circle hfind rfl hstatus
  have hreached : (s.complete ⟨"d"⟩ .completedWithFault).map (fun x =>
      [0, 1, 2].map fun i => (x.2.exchange? i).map fun e => (e.status, e.fault)) =
        .ok (List.replicate 3 (some (.completedWithFault, some "denied"))) := by decide +kernel
  rw [hcomplete] at hreached
  exact ⟨path, t, hcomplete, htrail, Except.ok.inj hreached⟩

end Registry

end JobCluster
