import RowQuery.Log.Timed
import RowQuery.Proofs.Log.Emission

/-!
# Timed operations

An operation runs between two reports. Main statement: the reports do not show in what the operation comes to,
unless the context of the reports takes a name that every record has and one of them passes the threshold; then
the operation is not run, or its failure is replaced.
-/

namespace RowQuery

open RowQuery.Action (effect)

set_option autoImplicit false

namespace Action

variable {σ α β : Type} {x : Action σ α} {f : α → Action σ β} {s s' : σ} {events : List Event}

theorem bind_of_ok {a : α} (h : x s = ⟨.ok a, s', events⟩) :
    (x >>= f) s = ⟨(f a s').result, (f a s').state, events ++ (f a s').events⟩ := by
  change bind x f s = _
  unfold bind
  rw [h]

theorem bind_of_error {e : Failure} (h : x s = ⟨.error e, s', events⟩) :
    (x >>= f) s = ⟨.error e, s', events⟩ := by
  change bind x f s = _
  unfold bind
  rw [h]

/-- A report stands in the way of what follows it, or does not show in it. -/
theorem emit_lift (threshold : Level) (e : Event) (r : Except Failure α) (s : σ) :
    (emit threshold e >>= fun _ => lift r) s =
      ⟨(e.refusal threshold).elim r fun name => .error (.defect (.attributeTaken name)), s,
        e.recorded threshold⟩ := by
  have hemit := emit_eq threshold e s
  cases hrefusal : e.refusal threshold with
  | some name =>
    rw [hrefusal] at hemit
    exact bind_of_error hemit
  | none =>
    rw [hrefusal] at hemit
    rw [bind_of_ok hemit]
    cases r <;> simp [lift, pure, fail]

end Action

namespace Event

/-- A name that is free does not bear on the names that are taken. -/
theorem taken?_insertMember {name : String} (hname : isFree (.ofString name) = true)
    (extra : List (Value × Value)) (v : Value) :
    taken? (Value.insertMember extra (.ofString name) v) = taken? extra := by
  induction extra with
  | nil => rw [Value.insertMember, taken?_cons, if_pos hname]
  | cons m extra ih =>
    rw [Value.insertMember]
    split
    · rw [taken?_cons, taken?_cons]
    · rw [taken?_cons, taken?_cons, ih]

end Event

namespace Timing

variable {σ α : Type} (t : Timing)

/-- The first name in the context that is a part of the timing. -/
def own? : Option Text := (Event.names t.context).find? (ownNames.map Text.ofString).contains

/-- The report at the end of an operation. -/
def lastEvent (result : Except Failure α) : Event :=
  match result with
  | .ok _ => t.endEvent
  | .error e => t.failureEvent e.toRaised

/-- The report at the end carries the names of the context, and others that are free. -/
theorem taken?_lastEvent (result : Except Failure α) :
    Event.taken? (t.lastEvent result).extra = Event.taken? t.context := by
  have hfinal : Event.taken? t.finalContext = Event.taken? t.context :=
    Event.taken?_insertMember (by decide) t.context _
  cases result with
  | ok a => exact hfinal
  | error e => exact (Event.taken?_insertMember (by decide) t.finalContext _).trans hfinal

theorem refusal_startEvent (threshold : Level) : t.startEvent.refusal threshold =
    if threshold.passes t.level then Event.taken? t.context else none := rfl

theorem refusal_lastEvent (threshold : Level) (result : Except Failure α) :
    (t.lastEvent result).refusal threshold =
      if threshold.passes (t.lastEvent result).level then Event.taken? t.context else none := by
  rw [Event.refusal, taken?_lastEvent]

/-- A context of names fails the check for the first that is a part of the timing. -/
theorem check_eq (h : ∀ m ∈ t.context, m.1.text?.isSome = true) :
    t.check = t.own?.elim (.ok ()) fun name => .error (.defect (.repeatedArgument name)) := by
  have hnamed : (t.context.any fun m => m.1.text?.isNone) = false := by
    rw [List.any_eq_false]
    intro m hm
    rw [Option.isNone_iff_eq_none]
    exact Option.isSome_iff_ne_none.1 (h m hm)
  have hown : (fun name => ownNames.any fun own => Text.ofString own = name) =
      (ownNames.map Text.ofString).contains := by
    funext name
    rw [Bool.eq_iff_iff]
    simp
  unfold check own? Event.names
  rw [hnamed]
  dsimp only
  rw [hown]
  cases (t.context.filterMap fun m => m.1.text?).find? (ownNames.map Text.ofString).contains <;> rfl

/-- A timed operation after its first report. -/
def finish (threshold : Level) (body : Action σ α) : Action (Timed σ) α := do
  let before ← Action.read
  let o := body before.state
  Action.record o.events
  Action.write ⟨some t.duration, o.state⟩
  Action.emit threshold (t.lastEvent o.result)
  Action.lift o.result

/-- A timed operation: its check, its first report, and what comes after that. -/
theorem run_eq_finish (threshold : Level) (body : Action σ α) :
    t.run threshold body = (do
      Action.lift t.check
      Action.emit threshold t.startEvent
      t.finish threshold body) := by
  unfold run finish
  refine congrArg (Action.lift t.check >>= ·) (funext fun _ => ?_)
  refine congrArg (Action.emit threshold t.startEvent >>= ·) (funext fun _ => ?_)
  refine congrArg (Action.read >>= ·) (funext fun before => ?_)
  dsimp only
  cases (body before.state).result <;> rfl

/-- What comes after the first report, as one outcome: the last report may replace the result by its own
failure. -/
theorem finish_eq (threshold : Level) (body : Action σ α) (d : Option Binary64) (s : σ) :
    t.finish threshold body ⟨d, s⟩ =
      ⟨((t.lastEvent (body s).result).refusal threshold).elim (body s).result fun name =>
          .error (.defect (.attributeTaken name)),
        ⟨some t.duration, (body s).state⟩,
        (body s).events ++ (t.lastEvent (body s).result).recorded threshold⟩ := by
  let ended : Action (Timed σ) α := do
    Action.emit threshold (t.lastEvent (body s).result)
    Action.lift (body s).result
  let o := ended ⟨some t.duration, (body s).state⟩
  have hended : o = _ := Action.emit_lift threshold (t.lastEvent (body s).result) (body s).result _
  change (⟨o.result, o.state, (body s).events ++ o.events⟩ : Outcome (Timed σ) α) = _
  rw [hended]

section Runs

variable {t : Timing} {threshold : Level} {body : Action σ α} {d : Option Binary64} {s : σ}

/-- Names that do not pass the check keep the operation from being run. -/
theorem run_unchecked {e : Failure} (h : t.check = .error e) :
    t.run threshold body ⟨d, s⟩ = ⟨.error e, ⟨d, s⟩, []⟩ := by
  rw [run_eq_finish, h]
  rfl

theorem run_checked (h : t.check = .ok ()) :
    t.run threshold body ⟨d, s⟩ =
      (Action.emit threshold t.startEvent >>= fun _ => t.finish threshold body) ⟨d, s⟩ := by
  rw [run_eq_finish, h]
  rfl

/-- A first report that fails keeps the operation from being run. -/
theorem run_refused {name : Text} (hcheck : t.check = .ok ())
    (hstart : t.startEvent.refusal threshold = some name) :
    t.run threshold body ⟨d, s⟩ =
      ⟨.error (.defect (.attributeTaken name)), ⟨d, s⟩, t.startEvent.recorded threshold⟩ := by
  have hemit := Action.emit_eq threshold t.startEvent (⟨d, s⟩ : Timed σ)
  rw [hstart] at hemit
  rw [run_checked hcheck]
  exact Action.bind_of_error hemit

/-- After a first report that does not fail, the operation is run once and the last report decides. -/
theorem run_started (hcheck : t.check = .ok ()) (hstart : t.startEvent.refusal threshold = none) :
    t.run threshold body ⟨d, s⟩ =
      ⟨((t.lastEvent (body s).result).refusal threshold).elim (body s).result fun name =>
          .error (.defect (.attributeTaken name)),
        ⟨some t.duration, (body s).state⟩,
        t.startEvent.recorded threshold ++
          ((body s).events ++ (t.lastEvent (body s).result).recorded threshold)⟩ := by
  have hemit := Action.emit_eq threshold t.startEvent (⟨d, s⟩ : Timed σ)
  rw [hstart] at hemit
  rw [run_checked hcheck]
  refine (Action.bind_of_ok hemit).trans ?_
  rw [finish_eq]

/-- A timed operation gives what the operation gives, if the names in the context are free. -/
theorem effect_run (threshold : Level) {s' : σ} {a : α} (hcheck : t.check = .ok ())
    (htaken : Event.taken? t.context = none) (hbody : effect body s = (.ok a, s')) :
    effect (t.run threshold body) ⟨none, s⟩ = (.ok a, ⟨some t.duration, s'⟩) := by
  have hresult : (body s).result = .ok a := congrArg Prod.fst hbody
  have hstate : (body s).state = s' := congrArg Prod.snd hbody
  have hstart : t.startEvent.refusal threshold = none := by
    rw [refusal_startEvent, htaken, ite_self]
  have hlast : (t.lastEvent (body s).result).refusal threshold = none := by
    rw [refusal_lastEvent, htaken, ite_self]
  rw [effect, run_started hcheck hstart, hlast, hresult, hstate]
  rfl

end Runs

/-- A timed operation whose context has names runs once, between its reports, and ends as it does without them,
unless a name is a part of the timing, or every record has it already and a report passes the threshold. Then the
operation is not run, or the failure to report takes the place of its own. -/
theorem run_transparent (h : ∀ m ∈ t.context, m.1.text?.isSome = true) (threshold : Level) (body : Action σ α)
    (d : Option Binary64) (s : σ) :
    let o := body s
    let last := t.lastEvent o.result
    let run := t.run threshold body ⟨d, s⟩
    (t.own? = none →
      Event.taken? t.context = none ∨ threshold.passes t.level = false ∧ threshold.passes last.level = false →
      run = ⟨o.result, ⟨some t.duration, o.state⟩,
        t.startEvent.recorded threshold ++ (o.events ++ last.recorded threshold)⟩) ∧
    (∀ name, t.own? = some name → run = ⟨.error (.defect (.repeatedArgument name)), ⟨d, s⟩, []⟩) ∧
    (∀ name, t.own? = none → Event.taken? t.context = some name → threshold.passes t.level = true →
      run = ⟨.error (.defect (.attributeTaken name)), ⟨d, s⟩, t.startEvent.recorded threshold⟩) ∧
    (∀ name, t.own? = none → Event.taken? t.context = some name → threshold.passes t.level = false →
      threshold.passes last.level = true →
      run = ⟨.error (.defect (.attributeTaken name)), ⟨some t.duration, o.state⟩,
        o.events ++ last.recorded threshold⟩) := by
  intro o last run
  have hcheck := t.check_eq h
  have hstart := t.refusal_startEvent threshold
  have hlast : last.refusal threshold = _ := t.refusal_lastEvent threshold o.result
  refine ⟨fun hown hfree => ?_, fun name hown => ?_, fun name hown htaken hpass => ?_,
    fun name hown htaken hpass hlastPass => ?_⟩
  all_goals rw [hown] at hcheck
  · have hrefusals : t.startEvent.refusal threshold = none ∧ last.refusal threshold = none := by
      rw [hstart, hlast]
      rcases hfree with htaken | ⟨hpass, hlastPass⟩
      · rw [htaken, ite_self, ite_self]
        exact ⟨rfl, rfl⟩
      · rw [hpass, hlastPass]
        exact ⟨rfl, rfl⟩
    refine (run_started hcheck hrefusals.1).trans ?_
    rw [hrefusals.2]
    rfl
  · exact run_unchecked hcheck
  · rw [hpass, htaken] at hstart
    exact run_refused hcheck hstart
  · rw [hpass] at hstart
    rw [hlastPass, htaken] at hlast
    have hnone : t.startEvent.recorded threshold = [] := by
      rw [Event.recorded, show threshold.passes t.startEvent.level = false from hpass]
      rfl
    refine (run_started hcheck hstart).trans ?_
    rw [hlast, hnone]
    rfl

def slow : Raised := ⟨.value, "slow", none, .mapping []⟩

/-- An operation that fails after it has written to its state. -/
def stumble : Action Nat Unit := do
  Action.write 1
  Action.fail (.raised slow)

def placesBuild : Timing where
  operation := "build"
  logger := "factual_query.test"
  level := .debug
  context := [(.ofString "table", .ofString "places"), (.ofString "exec_ms", .null)]
  start := .zero
  stop := .zero

/-- The operation is run between its reports, and fails as it does without them. -/
theorem run_transparent_placesBuild : placesBuild.run Level.debug stumble ⟨none, 0⟩ =
    ⟨.error (.raised slow), ⟨some placesBuild.duration, 1⟩,
      [placesBuild.startEvent, placesBuild.failureEvent slow]⟩ :=
  (run_transparent placesBuild (by decide) Level.debug stumble none 0).1 rfl (.inl rfl)

/-- A timing whose context takes a name of every record. -/
def namedBuild : Timing := { placesBuild with context := [(.ofString "name", .ofString "x")] }

/-- The operation is not run, or its failure is replaced, depending on what passes the threshold. -/
theorem takenName_not_transparent :
    (stumble 0).result = .error (.raised slow) ∧ (stumble 0).state = 1 ∧
    (namedBuild.run Level.debug stumble ⟨none, 0⟩).result = .error (.defect (.attributeTaken "name")) ∧
    (namedBuild.run Level.debug stumble ⟨none, 0⟩).state = ⟨none, 0⟩ ∧
    (namedBuild.run Level.info stumble ⟨none, 0⟩).result = .error (.defect (.attributeTaken "name")) :=
  ⟨rfl, rfl, rfl, rfl, rfl⟩

end Timing

end RowQuery
