import JobCluster.Proofs.Exchange.Dealings
/-!
# The outcome of an exchange

An exchange comes to its end once, whoever brings it there: a call of the registry, a call by one of
its handles, or the outcome of another exchange that is piped to it. From then on its status stays
as it is, and so do its fault, its explanation and its failure, unless somebody records others by a
handle. An exchange that has left the registry before it came to its end never does.

Main results:

- `Exchange.MovesOn`: what may become of an exchange;
- `Registry.Proceeds`: what may become of all exchanges of a registry, with the completions and the
  records on the way;
- `Registry.proceeds_forward`, `Dealing.proceeds`: the steps along a pipe, and of every dealing;
- `Registry.outcome_play`: the outcome of an exchange in a history.
-/

namespace JobCluster

/-! ## One exchange -/

namespace Exchange

variable {e f g : Exchange}

/-- What is recorded of the outcome of an exchange besides its status. -/
def outcome (e : Exchange) : Option String × Option String × Option FailureType :=
  (e.fault, e.explanation, e.failureType)

/-- Whether an exchange can become another one: its status never goes back, and stays once it is
terminal or the exchange is detached. -/
structure MovesOn (e f : Exchange) : Prop where
  rank : e.status.rank ≤ f.status.rank
  settled : e.isTerminal = true → f.status = e.status
  left : e.detached = true → f.detached = true ∧ f.status = e.status

/-- An exchange moves on step by step. -/
theorem MovesOn.trans (h : e.MovesOn f) (h' : f.MovesOn g) : e.MovesOn g where
  rank := Nat.le_trans h.rank h'.rank
  settled := by
    intro he
    have hf : f.isTerminal = true := by rwa [isTerminal, h.settled he]
    rw [h'.settled hf, h.settled he]
  left := by
    intro he
    obtain ⟨hf, hstatus⟩ := h.left he
    obtain ⟨hg, hstatus'⟩ := h'.left hf
    exact ⟨hg, hstatus'.trans hstatus⟩

/-- An exchange whose status stays, and that is not attached again, has moved on. -/
theorem movesOn_of_status_eq (hstatus : f.status = e.status)
    (hdetached : e.detached = true → f.detached = true) : e.MovesOn f where
  rank := Nat.le_of_eq (congrArg ExchangeStatus.rank hstatus).symm
  settled _ := hstatus
  left he := ⟨hdetached he, hstatus⟩

theorem movesOn_refl (e : Exchange) : e.MovesOn e :=
  movesOn_of_status_eq rfl fun h => h

/-- Whoever is neither over nor detached may take any status that is not behind. -/
theorem movesOn_of_unfinished (hunfinished : e.isTerminal = false) (hattached : e.detached = false)
    (hrank : e.status.rank ≤ f.status.rank) : e.MovesOn f := by
  refine ⟨hrank, ?_, ?_⟩
  · intro he
    simp [hunfinished] at he
  · intro he
    simp [hattached] at he

/-- No status ranks above a terminal one. -/
theorem rank_le_of_isTerminal {status : ExchangeStatus} (h : status.isTerminal = true) :
    e.status.rank ≤ status.rank := by
  rw [ExchangeStatus.isTerminal_iff_rank] at h
  exact h ▸ e.status.rank_le

end Exchange

/-! ## Handles -/

namespace Session.ExchangeCall

/-- Whether a call records a fault or a failure. -/
def records : ExchangeCall → Bool
  | .set change => change.fault.isSome || change.failure.isSome
  | .info _ | .advance _ | .complete _ => false

/-- Every call by handle lets the exchange move on. -/
theorem movesOn_run (call : ExchangeCall) (e : Exchange) : e.MovesOn (call.run e).2 := by
  have heffect := call.effect_run e
  generalize call.completes e = completed, (call.run e).2 = f at heffect
  cases heffect with
  | changed change =>
      obtain ⟨hsame, hstatus⟩ := change.keeps_apply e
      exact Exchange.movesOn_of_status_eq hstatus fun he => hsame.detached.trans he
  | same _ _ => exact e.movesOn_refl
  | advanced target _ hunfinished hattached hrank =>
      exact Exchange.movesOn_of_unfinished hunfinished hattached hrank
  | completed status hstatus hunfinished hattached =>
      exact Exchange.movesOn_of_unfinished hunfinished hattached
        (Exchange.rank_le_of_isTerminal hstatus)

/-- A call answers that it completes an exchange exactly if the exchange comes to its end by it. -/
theorem toNat_completes_add (call : ExchangeCall) (e : Exchange) :
    (call.completes e).toNat + e.isTerminal.toNat = (call.run e).2.isTerminal.toNat := by
  have heffect := call.effect_run e
  generalize call.completes e = completed, (call.run e).2 = f at heffect
  cases heffect with
  | changed change => simp [Exchange.isTerminal, (change.keeps_apply e).2]
  | same _ _ => simp
  | advanced target htarget hunfinished _ _ =>
      rw [hunfinished, Exchange.isTerminal, htarget]
      rfl
  | completed status hstatus hunfinished _ =>
      rw [hunfinished, Exchange.isTerminal, hstatus]
      rfl

/-- Only the recording of a fault or a failure changes the outcome of an exchange. -/
theorem outcome_run {call : ExchangeCall} (h : call.records = false) (e : Exchange) :
    (call.run e).2.outcome = e.outcome := by
  have heffect := call.effect_run e
  generalize call.completes e = completed, (call.run e).2 = f at heffect
  cases heffect with
  | changed change =>
      simp only [records, Bool.or_eq_false_iff, Option.isSome_eq_false_iff,
        Option.isNone_iff_eq_none] at h
      simp only [ExchangeChange.apply, ExchangeChange.applyFailure, ExchangeChange.applyFault, h.1,
        h.2]
      rfl
  | same _ _ => rfl
  | advanced _ _ _ _ _ => rfl
  | completed _ _ _ _ => rfl

end Session.ExchangeCall

/-! ## All exchanges of a registry -/

namespace Registry

variable {r s t : Registry} {done later noted : List Nat}

/-- Whether the exchange in a slot has come to its end. -/
def isOver (r : Registry) (slot : Nat) : Bool := (r.exchange? slot).any Exchange.isTerminal

theorem isOver_of_exchange? {slot : Nat} {e : Exchange} (he : r.exchange? slot = some e) :
    r.isOver slot = e.isTerminal := by
  rw [isOver, he, Option.any_some]

/-- Whether one registry can become another one. On the way the exchanges of some slots are
completed, a slot being listed once for each completion, and somebody records a fault or a failure
on those of others. -/
structure Proceeds (r s : Registry) (done noted : List Nat) : Prop where
  exchanges : ∀ slot e, r.exchange? slot = some e → ∃ f, s.exchange? slot = some f ∧ e.MovesOn f ∧
    (e.isTerminal = true → slot ∉ noted → f.outcome = e.outcome)
  count : ∀ slot, done.count slot + (r.isOver slot).toNat = (s.isOver slot).toNat

/-- Completions and notes add up from one step to the next. -/
theorem Proceeds.trans {after : List Nat} (h : r.Proceeds s done noted)
    (h' : s.Proceeds t later after) : r.Proceeds t (done ++ later) (noted ++ after) where
  exchanges := by
    intro slot e he
    obtain ⟨f, hf, hmoves, houtcome⟩ := h.exchanges slot e he
    obtain ⟨g, hg, hmoves', houtcome'⟩ := h'.exchanges slot f hf
    refine ⟨g, hg, hmoves.trans hmoves', fun hover hslot => ?_⟩
    rw [List.mem_append, not_or] at hslot
    have hoverf : f.isTerminal = true := by rwa [Exchange.isTerminal, hmoves.settled hover]
    rw [houtcome' hoverf hslot.2, houtcome hover hslot.1]
  count := by
    intro slot
    have hfirst := h.count slot
    have hsecond := h'.count slot
    rw [List.count_append]
    omega

/-- What leaves the status and the records of every exchange leaves all but the detachment. -/
theorem proceeds_of_detach
    (h : ∀ slot, s.exchange? slot = r.exchange? slot ∨
      s.exchange? slot = (r.exchange? slot).map Exchange.detach) : r.Proceeds s [] [] where
  exchanges := by
    intro slot e he
    rcases h slot with hsame | hdetach
    · exact ⟨e, hsame.trans he, e.movesOn_refl, fun _ _ => rfl⟩
    · refine ⟨e.detach, ?_, Exchange.movesOn_of_status_eq rfl fun _ => rfl, fun _ _ => rfl⟩
      rw [hdetach, he]
      rfl
  count := by
    intro slot
    have hover : s.isOver slot = r.isOver slot := by
      unfold isOver
      rcases h slot with hsame | hdetach
      · rw [hsame]
      · rw [hdetach]
        cases r.exchange? slot <;> rfl
    rw [hover, List.count_nil, Nat.zero_add]

/-- A registry whose exchanges stay has not proceeded. -/
theorem proceeds_of_exchanges_eq (h : s.exchanges = r.exchanges) : r.Proceeds s [] [] := by
  refine proceeds_of_detach fun slot => .inl ?_
  rw [exchange?, h, exchange?]

theorem Proceeds.refl (r : Registry) : r.Proceeds r [] [] :=
  proceeds_of_exchanges_eq rfl

/-- One exchange goes on, and comes to its end as often as its slot is listed. -/
theorem proceeds_setExchange {slot n : Nat} {e f : Exchange} (he : r.exchange? slot = some e)
    (hmoves : e.MovesOn f) (hcount : n + e.isTerminal.toNat = f.isTerminal.toNat)
    (houtcome : e.isTerminal = true → slot ∉ noted → f.outcome = e.outcome) :
    r.Proceeds (r.setExchange slot f) (List.replicate n slot) noted where
  exchanges := by
    intro i g hg
    rw [exchange?_setExchange he]
    by_cases hi : slot = i
    · subst hi
      rw [he] at hg
      obtain rfl := Option.some.inj hg
      exact ⟨f, if_pos rfl, hmoves, houtcome⟩
    · exact ⟨g, (if_neg hi).trans hg, g.movesOn_refl, fun _ _ => rfl⟩
  count := by
    intro i
    rw [List.count_replicate, isOver, isOver, exchange?_setExchange he]
    by_cases hi : slot = i
    · subst hi
      simpa [he] using hcount
    · simp [hi]

/-- Something is recorded on an exchange that is not over. -/
theorem proceeds_of_unfinished {slot : Nat} {e f : Exchange} (he : r.exchange? slot = some e)
    (hunfinished : e.isTerminal = false) (hstatus : f.status = e.status)
    (hdetached : f.detached = e.detached) : r.Proceeds (r.setExchange slot f) [] noted := by
  refine proceeds_setExchange (n := 0) he ?_ ?_ ?_
  · exact Exchange.movesOn_of_status_eq hstatus hdetached.trans
  · rw [Nat.zero_add, Exchange.isTerminal, Exchange.isTerminal, hstatus]
  · intro hover
    simp [hunfinished] at hover

/-- An exchange comes to its end. -/
theorem proceeds_finish {slot : Nat} {e f : Exchange} (he : r.exchange? slot = some e)
    (hunfinished : e.isTerminal = false) (hattached : e.detached = false)
    (hover : f.status.isTerminal = true) : r.Proceeds (r.setExchange slot f) [slot] noted := by
  refine proceeds_setExchange (n := 1) he ?_ ?_ ?_
  · exact Exchange.movesOn_of_unfinished hunfinished hattached
      (Exchange.rank_le_of_isTerminal hover)
  · rw [hunfinished, Exchange.isTerminal, hover]
    rfl
  · intro hover
    simp [hunfinished] at hover

/-! ## Completion -/

/-- The slots of the exchanges that are completed as an outcome is handed on along a pipe. -/
def forwarded (status : ExchangeStatus) : Nat → Nat → Registry → List Nat
  | 0, _, _ => []
  | steps + 1, slot, r =>
    match r.exchange? slot with
    | none => []
    | some source =>
      match source.style with
      | .blocking | .async => []
      | .piped id =>
        match r.find? id with
        | none => []
        | some (targetSlot, target) =>
          if target.isTerminal then []
          else
            match (target.takeOutcome source).complete status with
            | .ok (.completed, finished) =>
              targetSlot :: forwarded status steps targetSlot (r.setExchange targetSlot finished)
            | _ => []

/-- An identifier that is found belongs to the exchange in its slot. -/
theorem exchange?_of_find? {id : ExchangeId} {slot : Nat} {e : Exchange}
    (h : r.find? id = some (slot, e)) : r.exchange? slot = some e := by
  have hlookup : r.lookup id = .ok (slot, e) := by rw [lookup, h]
  exact (exchange?_of_lookup hlookup).2

/-- Along a pipe, the outcome of an exchange that is over is never touched. -/
theorem proceeds_forward (status : ExchangeStatus) (steps slot : Nat) (r : Registry) :
    r.Proceeds (forward status steps slot r) (forwarded status steps slot r) [] := by
  induction steps generalizing slot r with
  | zero => exact .refl r
  | succ steps ih =>
      unfold forward forwarded
      cases hsource : r.exchange? slot with
      | none => exact .refl r
      | some source =>
          simp only
          cases source.style with
          | blocking => exact .refl r
          | async => exact .refl r
          | piped id =>
              simp only
              cases hfind : r.find? id with
              | none => exact .refl r
              | some found =>
                  obtain ⟨targetSlot, target⟩ := found
                  have htarget := exchange?_of_find? hfind
                  simp only
                  split
                  · exact .refl r
                  · next hunfinished =>
                    have hunfinished : target.isTerminal = false := by simpa using hunfinished
                    -- The target is not over, so it may take the outcome, whatever comes of that.
                    have hinformed : r.Proceeds
                        (r.setExchange targetSlot (target.takeOutcome source)) [] [] :=
                      proceeds_of_unfinished htarget hunfinished rfl rfl
                    rcases hcomplete : (target.takeOutcome source).complete status with
                      error | ⟨_ | ⟨earlier⟩, finished⟩
                    · exact hinformed
                    · obtain ⟨rfl, hstatus, _, hattached⟩ :=
                        Exchange.complete_eq_completed hcomplete
                      have hfinish : r.Proceeds (r.setExchange targetSlot
                          { target.takeOutcome source with status }) [targetSlot] [] :=
                        proceeds_finish htarget hunfinished hattached hstatus
                      exact hfinish.trans (ih targetSlot _)
                    · exact hinformed

/-- The slots of the exchanges that are completed as a registered one is to be ended: that one, if
the answer says so, and those that its outcome is handed on to. -/
def completes (r : Registry) (id : ExchangeId) (status : ExchangeStatus) : List Nat :=
  match r.find? id, r.complete id status with
  | some (slot, e), .ok (.completed, _) =>
    slot :: forwarded status maxForwards slot (r.setExchange slot { e with status })
  | _, _ => []

/-- A completion completes the exchange itself, and those behind it in the pipe. -/
theorem proceeds_complete (r : Registry) (id : ExchangeId) (status : ExchangeStatus) :
    r.Proceeds (r.orSelf ((r.complete id status).map Prod.snd)) (r.completes id status) [] := by
  unfold completes complete lookup
  cases hfind : r.find? id with
  | none => exact .refl r
  | some found =>
      obtain ⟨slot, e⟩ := found
      have he := exchange?_of_find? hfind
      simp only [Bind.bind, Except.bind]
      rcases hcomplete : e.complete status with error | ⟨_ | ⟨earlier⟩, finished⟩
      · exact .refl r
      · obtain ⟨rfl, hstatus, hunfinished, hattached⟩ := Exchange.complete_eq_completed hcomplete
        have hfinish : r.Proceeds (r.setExchange slot { e with status }) [slot] [] :=
          proceeds_finish he hunfinished hattached hstatus
        exact hfinish.trans (proceeds_forward status maxForwards slot _)
      · exact .refl r

/-- The slots of the exchanges that are completed as a registered one is to be ended as failed. -/
def completesFailed (r : Registry) (id : ExchangeId) (failure : FailureType)
    (explanation : Option String) : List Nat :=
  match r.find? id with
  | some (slot, e) =>
    if e.isTerminal then []
    else (r.setExchange slot (e.setFailure failure explanation)).completes id .failed
  | none => []

/-- A completion that is refused completes no exchange. -/
theorem completes_of_error {id : ExchangeId} {status : ExchangeStatus} {error : RegistryError}
    (h : r.complete id status = .error error) : r.completes id status = [] := by
  unfold completes
  rw [h]
  cases r.find? id <;> rfl

theorem proceeds_fail (r : Registry) (id : ExchangeId) (failure : FailureType)
    (explanation : Option String) :
    r.Proceeds (r.orSelf ((r.fail id failure explanation).map Prod.snd))
      (r.completesFailed id failure explanation) [] := by
  unfold completesFailed fail lookup
  cases hfind : r.find? id with
  | none => exact .refl r
  | some found =>
      obtain ⟨slot, e⟩ := found
      have he := exchange?_of_find? hfind
      simp only [Bind.bind, Except.bind]
      split
      · exact .refl r
      · next hunfinished =>
        have hset : r.Proceeds (r.setExchange slot (e.setFailure failure explanation)) [] [] :=
          proceeds_of_unfinished he (by simpa using hunfinished) rfl rfl
        have hcomplete :=
          (r.setExchange slot (e.setFailure failure explanation)).proceeds_complete id .failed
        cases hanswer : (r.setExchange slot (e.setFailure failure explanation)).complete id
            .failed with
        | error error =>
            rw [completes_of_error hanswer]
            exact .refl r
        | ok answer =>
            rw [hanswer] at hcomplete
            exact hset.trans hcomplete

/-! ## Leaving the registry -/

/-- No exchange is completed as one is withdrawn. -/
theorem proceeds_withdraw (r : Registry) (id : ExchangeId) : r.Proceeds (r.withdraw id) [] [] := by
  refine proceeds_of_detach fun slot => ?_
  rw [exchange?_withdraw]
  split
  · exact .inr rfl
  · exact .inl rfl

theorem Sheds.proceeds (h : r.Sheds s) : r.Proceeds s [] [] := by
  induction h with
  | refl => exact .refl r
  | @withdraw s _ id ih => exact ih.trans (s.proceeds_withdraw id)
  | count _ _ _ _ _ _ ih => exact ih.trans (proceeds_of_exchanges_eq rfl)

theorem proceeds_forceSweep (r : Registry) (now : Time) :
    r.Proceeds (r.forceSweep now).2 [] [] := by
  have hstart : r.Proceeds { r with lastSweep := now } [] [] := proceeds_of_exchanges_eq rfl
  exact hstart.trans (r.sheds_forceSweep now).proceeds

theorem proceeds_sweep (r : Registry) (now : Time) : r.Proceeds (r.sweep now).2 [] [] := by
  unfold sweep
  split
  · exact r.proceeds_forceSweep now
  · exact .refl r

/-! ## Creation -/

/-- A new exchange is not over, and its slot was empty before. -/
theorem proceeds_register {id : ExchangeId} {direction : Direction} {now : Time} {slot : Nat}
    (h : r.register id direction now = .ok (slot, s)) : r.Proceeds s [] [] := by
  refine ⟨fun i e he => ⟨e, ?_, e.movesOn_refl, fun _ _ => rfl⟩, fun i => ?_⟩
  · rw [exchange?_register h, if_neg]
    · exact he
    · rintro rfl
      simp [exchange?_length] at he
  · rw [List.count_nil, Nat.zero_add, isOver, isOver, exchange?_register h]
    split
    · next hi =>
      rw [hi, exchange?_length]
      rfl
    · rfl

theorem proceeds_create (r : Registry) (id : ExchangeId) (direction : Direction) (now : Time) :
    r.Proceeds (r.orSelf ((r.create id direction now).map Prod.snd)) [] [] := by
  rcases r.orSelf_create id direction now with ⟨_, hself⟩ | ⟨slot, t, _, hregister, hsweep⟩
  · rw [hself]
    exact .refl r
  · rw [hsweep]
    exact (proceeds_register hregister).trans (t.proceeds_sweep now)

/-! ## Conversations -/

theorem proceeds_advance (r : Registry) (id : ExchangeId) (target : ExchangeStatus) :
    r.Proceeds (r.orSelf (r.advance id target)) [] [] := by
  unfold advance lookup
  cases hfind : r.find? id with
  | none => exact .refl r
  | some found =>
      obtain ⟨slot, e⟩ := found
      simp only [Bind.bind, Except.bind]
      cases hadvance : e.advance target with
      | error error => exact .refl r
      | ok f =>
          obtain ⟨rfl, htarget, hunfinished, hattached, hrank⟩ := Exchange.advance_eq_ok hadvance
          refine proceeds_setExchange (n := 0) (exchange?_of_find? hfind)
            (Exchange.movesOn_of_unfinished hunfinished hattached hrank) ?_ fun _ _ => rfl
          rw [hunfinished, Exchange.isTerminal, htarget]
          rfl

theorem proceeds_bind (r : Registry) (catalog : Option Catalog) (id : ExchangeId)
    (key : OperationKey) :
    r.Proceeds (r.orSelf ((r.bind catalog id key).map Prod.snd)) [] [] := by
  unfold Registry.bind lookup
  cases hfind : r.find? id with
  | none => exact .refl r
  | some found =>
      obtain ⟨slot, e⟩ := found
      exact proceeds_setExchange (n := 0) (exchange?_of_find? hfind)
        (Exchange.movesOn_of_status_eq rfl fun h => h) (Nat.zero_add _) fun _ _ => rfl

/-- The slot of the exchange that a call by a handle completes, if it does. -/
def completesHeld (r : Registry) (slot : Nat) (call : Session.ExchangeCall) : List Nat :=
  match r.exchange? slot with
  | some e => if call.completes e then [slot] else []
  | none => []

/-- A call by handle completes the exchange of the handle at most, and notes what it records. -/
theorem proceeds_hold (r : Registry) (slot : Nat) (call : Session.ExchangeCall) :
    r.Proceeds (r.hold slot call) (r.completesHeld slot call)
      (if call.records then [slot] else []) := by
  unfold completesHeld hold
  cases he : r.exchange? slot with
  | none => exact ⟨fun i e he => ⟨e, he, e.movesOn_refl, fun _ _ => rfl⟩, (Proceeds.refl r).count⟩
  | some e =>
      have hdone : (if call.completes e then [slot] else []) =
          List.replicate (call.completes e).toNat slot := by
        cases call.completes e <;> rfl
      simp only [hdone]
      refine proceeds_setExchange he (call.movesOn_run e) (call.toNat_completes_add e) ?_
      intro _ hslot
      cases hrecords : call.records with
      | false => exact call.outcome_run hrecords e
      | true => simp [hrecords] at hslot

end Registry

/-! ## Dealings -/

namespace Dealing

/-- The slots of the exchanges that a dealing completes. -/
def completes (r : Registry) : Dealing → List Nat
  | hold slot call => r.completesHeld slot call
  | change (.complete id status) _ => r.completes id status
  | change (.fail id failure explanation) _ => r.completesFailed id failure explanation
  | create _ _ | rollBack _ | sweep | forceSweep | change _ _ => []

/-- The slots of the exchanges on which a fault or a failure is recorded by a handle. -/
def notes : Dealing → List Nat
  | hold slot call => if call.records then [slot] else []
  | create _ _ | rollBack _ | sweep | forceSweep | change _ _ => []

/-- What any dealing makes of the exchanges of a registry. -/
theorem proceeds (r : Registry) (now : Time) (d : Dealing) :
    r.Proceeds (d.perform now r) (d.completes r) d.notes := by
  cases d with
  | create id direction => exact r.proceeds_create id direction now
  | rollBack id => exact (r.sheds_rollBack id).proceeds
  | sweep => exact r.proceeds_sweep now
  | forceSweep => exact r.proceeds_forceSweep now
  | hold slot call => exact r.proceeds_hold slot call
  | change a timeless =>
      cases a with
      | advance id target => exact r.proceeds_advance id target
      | complete id status => exact r.proceeds_complete id status
      | fail id failure explanation => exact r.proceeds_fail id failure explanation
      | bind catalog id key => exact r.proceeds_bind catalog id key
      | amend slot amendment => exact timeless.elim
      | release id => exact (r.sheds_release id).proceeds
      | releaseInstance id => exact (r.sheds_releaseInstance id).proceeds
      | cleanUp id =>
          have hroutes : r.Proceeds { r with routes := r.routes.release id } [] [] :=
            Registry.proceeds_of_exchanges_eq rfl
          exact hroutes.trans (r.sheds_cleanUp id).proceeds
      | sweep now => exact timeless.elim
      | forceSweep now => exact timeless.elim
      | setRoutes routes => exact Registry.proceeds_of_exchanges_eq rfl

end Dealing

/-! ## Histories -/

namespace Registry

/-- The slots of the exchanges that are completed along a history, once for each completion. -/
def completions (r : Registry) : List (Time × Dealing) → List Nat
  | [] => []
  | x :: rest => x.2.completes r ++ (x.2.perform x.1 r).completions rest

/-- A history completes the exchanges that its calls complete, one after another. -/
theorem proceeds_play (r : Registry) (history : List (Time × Dealing)) :
    r.Proceeds (r.play history) (r.completions history) (history.flatMap fun x => x.2.notes) := by
  induction history generalizing r with
  | nil => exact .refl r
  | cons x rest ih => exact (x.2.proceeds r x.1).trans (ih _)

/-- Whatever is done with a registry and with the exchanges that it has ever held, by calls of the
registry and by handles: the status of an exchange never goes back; once it is terminal, or once the
exchange is detached, it stays, and a detached exchange stays detached. Until then the completion of
an exchange is answered at most once, and just in case it has come to its end in the meantime. What
is recorded of the outcome of an exchange that is over stays unless somebody records something else
by a handle. -/
theorem outcome_play (r : Registry) (history : List (Time × Dealing)) (slot : Nat) :
    (∀ e, r.exchange? slot = some e → ∃ f, (r.play history).exchange? slot = some f ∧
      e.status.rank ≤ f.status.rank ∧
      (e.isTerminal = true → f.status = e.status) ∧
      (e.detached = true → f.detached = true ∧ f.status = e.status) ∧
      (e.isTerminal = true → (∀ x ∈ history, slot ∉ x.2.notes) → f.outcome = e.outcome)) ∧
    (r.completions history).count slot ≤ 1 ∧
    ((r.completions history).count slot = 1 ↔
      r.isOver slot = false ∧ (r.play history).isOver slot = true) := by
  have hproceeds := r.proceeds_play history
  refine ⟨fun e he => ?_, ?_, ?_⟩
  · obtain ⟨f, hf, hmoves, houtcome⟩ := hproceeds.exchanges slot e he
    refine ⟨f, hf, hmoves.rank, hmoves.settled, hmoves.left, fun hover hnotes => ?_⟩
    refine houtcome hover ?_
    rw [List.mem_flatMap]
    rintro ⟨x, hx, hslot⟩
    exact hnotes x hx hslot
  · have hcount := hproceeds.count slot
    have hlast := Bool.toNat_le ((r.play history).isOver slot)
    omega
  · have hcount := hproceeds.count slot
    cases hover : r.isOver slot <;> cases hover' : (r.play history).isOver slot <;>
      simp only [hover, hover', Bool.toNat_false, Bool.toNat_true] at hcount <;> simp <;> omega

/-- The outcome of one exchange is handed on to another one along a pipe. -/
def handover : List (Time × Dealing) :=
  [(1, .create ⟨"x"⟩ .myRole), (1, .create ⟨"y"⟩ .partnerRole),
    (2, .hold 1 (.set { style := some (.piped ⟨"x"⟩), fault := some "denied" })),
    (3, .change (.complete ⟨"y"⟩ .completedWithFault) trivial)]

/-- The exchange that has its outcome from the other one is to fail, is swept out, and is to be
completed by a handle. -/
def aftermath : List (Time × Dealing) :=
  [(4, .change (.fail ⟨"x"⟩ .noResponse none) trivial), (900, .forceSweep),
    (901, .hold 0 (.complete .completedOk))]

/-- Whatever is tried afterwards, the exchange keeps the outcome that was handed on to it. -/
theorem outcome_play_handover :
    let r := ({ ttl := 120, sweepInterval := 30 } : Registry).play handover
    ∃ e f, r.exchange? 0 = some e ∧ (r.play aftermath).exchange? 0 = some f ∧
      e.status = .completedWithFault ∧ f.status = e.status ∧ f.detached = true ∧
      e.outcome = (some "denied", none, none) ∧ f.outcome = e.outcome ∧
      (r.completions aftermath).count 0 ≤ 1 := by
  intro r
  obtain ⟨hexchange, hcount, _⟩ := r.outcome_play aftermath 0
  obtain ⟨f, hf, _, hsettled, _, houtcome⟩ := hexchange _ rfl
  refine ⟨_, f, rfl, hf, rfl, hsettled rfl, ?_, rfl, houtcome rfl ?_, hcount⟩
  · obtain rfl : _ = f := Option.some.inj hf
    rfl
  · simp [aftermath, Dealing.notes, Session.ExchangeCall.records]

end Registry

end JobCluster
