import RowQuery.Log.Root
import RowQuery.Proofs.Log.Emission
import RowQuery.Proofs.Text.Lowercase

/-!
# Setting up the logging

A set-up takes effect if it is forced or there is no handler yet. Main statement: after any sequence of set-ups
the root is as the last one that took effect left it, with one handler that lets pass what the root lets pass; if
none took effect it is as it was.
-/

namespace RowQuery.Root

open RowQuery.Action (effect)

set_option autoImplicit false

/-! ## One set-up -/

/-- The level and the format of the set-up are texts, where they are given. -/
def IsTextual (s : Setup) : Prop :=
  (s.level = .null ∨ ∃ t, s.level = .text t) ∧ (s.format = .null ∨ ∃ t, s.format = .text t)

/-- The text of an option, or the setting where it is missing or empty. -/
def chosen (option : Value) (setting : Text) : Text :=
  match option with
  | .text t => if t.isEmpty then setting else t
  | _ => setting

/-- The level of a name: that of the level that is named so in any case, or else the level of information. -/
def IsLevelOf (name : Text) (level : Level) : Prop :=
  (∃ p ∈ levelNames, Text.ofString p.1 = name.map upper ∧ level = p.2) ∨
    (∀ p ∈ levelNames, Text.ofString p.1 ≠ name.map upper) ∧ level = .info

/-- The formatter of a format name: that for machines if the name is `json` in any case, or else the one for
people. -/
def IsFormatterOf (terminal : Bool) (name : Text) (formatter : Formatter) : Prop :=
  (List.Forall₂ CodePoint.IsCaseOf ['j', 's', 'o', 'n'] name ∧ formatter = .json) ∨
    (¬ List.Forall₂ CodePoint.IsCaseOf ['j', 's', 'o', 'n'] name ∧ formatter = .text terminal)

/-- The root after a set-up that takes effect: it has one handler, with the level of the root. -/
def IsSetUp (settings : Settings) (terminal : Bool) (s : Setup) (root : Root) : Prop :=
  ∃ level formatter, root = ⟨level, [⟨some formatter, level⟩]⟩ ∧
    IsLevelOf (chosen s.level settings.logLevel) level ∧
    IsFormatterOf terminal (chosen s.format settings.logFormat) formatter

/-- A name stands for one level. -/
theorem isLevelOf_unique {name : Text} {level level' : Level} (h : IsLevelOf name level)
    (h' : IsLevelOf name level') : level = level' := by
  have hnames : ∀ p ∈ levelNames, ∀ q ∈ levelNames, Text.ofString p.1 = Text.ofString q.1 → p.2 = q.2 := by
    decide
  rcases h with ⟨p, hp, hname, rfl⟩ | ⟨hnone, rfl⟩
  · rcases h' with ⟨q, hq, hname', rfl⟩ | ⟨hnone', -⟩
    · exact hnames p hp q hq (hname.trans hname'.symm)
    · exact absurd hname (hnone' p hp)
  · rcases h' with ⟨q, hq, hname', -⟩ | ⟨-, rfl⟩
    · exact absurd hname' (hnone q hq)
    · rfl

theorem isFormatterOf_unique {terminal : Bool} {name : Text} {formatter formatter' : Formatter}
    (h : IsFormatterOf terminal name formatter) (h' : IsFormatterOf terminal name formatter') :
    formatter = formatter' := by
  rcases h with ⟨hjson, rfl⟩ | ⟨hother, rfl⟩
  · rcases h' with ⟨-, rfl⟩ | ⟨hother', -⟩
    · rfl
    · exact absurd hjson hother'
  · rcases h' with ⟨hjson', -⟩ | ⟨-, rfl⟩
    · exact absurd hjson' hother
    · rfl

/-- A set-up determines the root. -/
theorem isSetUp_unique {settings : Settings} {terminal : Bool} {s : Setup} {root root' : Root}
    (h : IsSetUp settings terminal s root) (h' : IsSetUp settings terminal s root') : root = root' := by
  obtain ⟨level, formatter, rfl, hlevel, hformat⟩ := h
  obtain ⟨level', formatter', rfl, hlevel', hformat'⟩ := h'
  rw [isLevelOf_unique hlevel hlevel', isFormatterOf_unique hformat hformat']

theorem choose_eq {option : Value} (h : option = .null ∨ ∃ t, option = .text t) (setting : Text) :
    choose option setting = .text (chosen option setting) := by
  rcases h with rfl | ⟨t, rfl⟩
  · rfl
  · cases t <;> rfl

/-- Every text is read as a level. -/
theorem exists_readLevel (name : Text) : ∃ level, readLevel (.text name) = .ok level ∧ IsLevelOf name level := by
  refine ⟨_, rfl, ?_⟩
  cases hfound : levelNames.find? fun p => Text.ofString p.1 = name.map upper with
  | none => exact .inr ⟨fun p hp => by simpa using List.find?_eq_none.1 hfound p hp, rfl⟩
  | some p =>
    exact .inl ⟨p, List.mem_of_find?_eq_some hfound, by simpa using List.find?_some hfound, rfl⟩

/-- Every text is read as a formatter. -/
theorem exists_readFormat (terminal : Bool) (name : Text) :
    ∃ formatter, readFormat terminal (.text name) = .ok formatter ∧ IsFormatterOf terminal name formatter := by
  have hsmall : ∀ d ∈ ['j', 's', 'o', 'n'], CodePoint.IsPlainSmall d := by
    simp only [List.forall_mem_cons, List.not_mem_nil, false_implies, implies_true, and_true]
    decide
  have hjson : name.lower = Text.ofString "json" ↔ _ := Text.lower_eq_iff ['j', 's', 'o', 'n'] hsmall name
  refine ⟨_, rfl, ?_⟩
  unfold IsFormatterOf
  rw [← hjson]
  split
  · next h => exact .inl ⟨h, rfl⟩
  · next h => exact .inr ⟨h, rfl⟩

/-- Whatever texts the level and the format are, they can be set up. -/
theorem effect_configure (terminal : Bool) (level format : Text) (root : Root) :
    ∃ threshold formatter, IsLevelOf level threshold ∧ IsFormatterOf terminal format formatter ∧
      effect (configure terminal (.text level) (.text format)) root =
        (.ok (), ⟨threshold, [⟨some formatter, threshold⟩]⟩) := by
  obtain ⟨threshold, hlevel, hthreshold⟩ := exists_readLevel level
  obtain ⟨formatter, hformat, hformatter⟩ := exists_readFormat terminal format
  obtain ⟨message, hmessage⟩ : ∃ message, setupMessage (.text level) (.text format) = .ok message :=
    ⟨_, rfl⟩
  have hemit : ∀ root : Root,
      effect (Action.emit threshold ⟨.debug, "root", message, [], none⟩) root = (.ok (), root) :=
    Action.effect_emit nofun
  refine ⟨threshold, formatter, hthreshold, hformatter, ?_⟩
  simp [configure, hlevel, hformat, hmessage, hemit]

variable (settings : Settings) (terminal : Bool)

/-- What a set-up does: nothing, or all that is set up. -/
theorem effect_setup {s : Setup} (h : IsTextual s) (root : Root) :
    ∃ next, effect (setup settings terminal s) root = (.ok (), next) ∧
      if isEffective root s then IsSetUp settings terminal s next else next = root := by
  unfold setup
  split
  · next heffective =>
    obtain ⟨threshold, formatter, hlevel, hformat, hconfigure⟩ :=
      effect_configure terminal (chosen s.level settings.logLevel) (chosen s.format settings.logFormat) root
    refine ⟨⟨threshold, [⟨some formatter, threshold⟩]⟩, ?_, threshold, formatter, rfl, hlevel, hformat⟩
    simp [heffective, choose_eq h.1, choose_eq h.2, hconfigure]
  · next hineffective => exact ⟨root, by simp [hineffective], rfl⟩

/-! ## Sequences of set-ups -/

/-- The set-ups that take effect, one after the other. -/
def effective (root : Root) : List Setup → List Setup
  | [] => []
  | s :: calls =>
    (if isEffective root s then [s] else []) ++ effective (effect (setup settings terminal s) root).2 calls

variable {settings terminal}

/-- Whatever a set-up does, there are handlers after it. -/
theorem handlers_setup {s : Setup} (h : IsTextual s) (root : Root) :
    (effect (setup settings terminal s) root).2.handlers ≠ [] := by
  obtain ⟨next, heffect, hnext⟩ := effect_setup settings terminal h root
  rw [heffect]
  split at hnext
  · obtain ⟨level, formatter, rfl, -⟩ := hnext
    exact List.cons_ne_nil _ _
  · next hineffective =>
    rw [hnext]
    intro hbare
    refine hineffective ?_
    rw [isEffective, show root.handlers = [] from hbare]
    exact Bool.or_true _

/-- Where there are handlers, the set-ups that are forced take effect. -/
theorem effective_of_handlers {calls : List Setup} (h : ∀ s ∈ calls, IsTextual s) {root : Root}
    (hroot : root.handlers ≠ []) :
    effective settings terminal root calls = calls.filter fun s => s.force.isTruthy := by
  induction calls generalizing root with
  | nil => rfl
  | cons s calls ih =>
    obtain ⟨hs, hcalls⟩ := List.forall_mem_cons.1 h
    have heffective : isEffective root s = s.force.isTruthy := by
      rw [isEffective, List.isEmpty_eq_false_iff.2 hroot, Bool.or_false]
    rw [effective, heffective, ih hcalls (handlers_setup hs root), List.filter_cons]
    cases s.force.isTruthy <;> rfl

/-- Where there are none, so does the first set-up. -/
theorem effective_of_bare {calls : List Setup} (h : ∀ s ∈ calls, IsTextual s) {root : Root}
    (hroot : root.handlers = []) : effective settings terminal root calls =
      calls.take 1 ++ (calls.drop 1).filter fun s => s.force.isTruthy := by
  cases calls with
  | nil => rfl
  | cons s calls =>
    obtain ⟨hs, hcalls⟩ := List.forall_mem_cons.1 h
    have heffective : isEffective root s = true := by
      rw [isEffective, hroot]
      exact Bool.or_true _
    rw [effective, heffective, effective_of_handlers hcalls (handlers_setup hs root)]
    rfl

variable (settings terminal)

/-- A sequence of set-ups leaves the root as the last one that took effect sets it up, or as it was. -/
theorem effect_setups {calls : List Setup} (h : ∀ s ∈ calls, IsTextual s) (root : Root) :
    ∃ final, effect (Action.forEach (setup settings terminal) calls) root = (.ok (), final) ∧
      match (effective settings terminal root calls).getLast? with
      | none => final = root
      | some s => IsSetUp settings terminal s final := by
  induction calls generalizing root with
  | nil => exact ⟨root, rfl, rfl⟩
  | cons s calls ih =>
    obtain ⟨hs, hcalls⟩ := List.forall_mem_cons.1 h
    obtain ⟨next, heffect, hnext⟩ := effect_setup settings terminal hs root
    obtain ⟨final, hrest, hfinal⟩ := ih hcalls next
    refine ⟨final, ?_, ?_⟩
    · change effect (setup settings terminal s >>= fun _ => Action.forEach (setup settings terminal) calls) root = _
      rw [Action.effect_bind, heffect, Action.andThen_ok, hrest]
    · rw [effective, heffect, List.getLast?_append]
      -- A later set-up that takes effect hides this one.
      cases hlast : (effective settings terminal next calls).getLast? with
      | some c =>
        rw [hlast] at hfinal
        exact hfinal
      | none =>
        rw [hlast] at hfinal
        cases heffective : isEffective root s with
        | true =>
          rw [heffective] at hnext
          exact hfinal ▸ hnext
        | false =>
          rw [heffective] at hnext
          exact hfinal.trans hnext

/-- After any sequence of set-ups whose levels and formats are texts or missing, the root is as it was if none took
effect, and else as the last one that did determines it, with one handler. Where there were handlers, those that
are forced took effect, and otherwise the first one too. -/
theorem setups_last_effective {calls : List Setup} (h : ∀ s ∈ calls, IsTextual s) (root : Root) :
    let done := effective settings terminal root calls
    ∃ final, effect (Action.forEach (setup settings terminal) calls) root = (.ok (), final) ∧
      (done = [] → final = root) ∧
      (∀ s, done.getLast? = some s → ∀ other, IsSetUp settings terminal s other ↔ other = final) ∧
      (root.handlers ≠ [] → done = calls.filter fun s => s.force.isTruthy) ∧
      (root.handlers = [] → done = calls.take 1 ++ (calls.drop 1).filter fun s => s.force.isTruthy) := by
  intro done
  obtain ⟨final, heffect, hfinal⟩ := effect_setups settings terminal h root
  refine ⟨final, heffect, fun hdone => ?_, fun s hs other => ?_, effective_of_handlers h, effective_of_bare h⟩
  · rw [show effective settings terminal root calls = [] from hdone] at hfinal
    exact hfinal
  · rw [show (effective settings terminal root calls).getLast? = some s from hs] at hfinal
    exact ⟨fun hother => isSetUp_unique hother hfinal, fun he => he ▸ hfinal⟩

/-- Three set-ups, of which the second is forced. -/
def mixedSetups : List Setup :=
  [⟨.ofString "error", .ofString "text", .bool false⟩, ⟨.ofString "debug", .ofString "JsOn", .bool true⟩,
    ⟨.null, .ofString "text", .bool false⟩]

/-- Among handlers of other origin, the forced set-up is the one that takes effect. -/
theorem setups_last_effective_mixed :
    effect (Action.forEach (setup (Settings.make [] []) false) mixedSetups) (withHandlers 2) =
      (.ok (), ⟨.debug, [⟨some .json, .debug⟩]⟩) := by
  have htextual : ∀ s ∈ mixedSetups, IsTextual s := by
    simp [mixedSetups, IsTextual, Value.ofString]
  obtain ⟨final, heffect, -, hlast, hforced, -⟩ :=
    setups_last_effective (Settings.make [] []) false htextual (withHandlers 2)
  have hdone := hforced (List.cons_ne_nil _ _)
  have hlevel : IsLevelOf "debug" .debug := .inl ⟨("DEBUG", .debug), by decide, by decide, rfl⟩
  have hformat : IsFormatterOf false "JsOn" .json :=
    .inl ⟨.cons (.inr rfl) (.cons (.inl rfl) (.cons (.inr rfl) (.cons (.inl rfl) .nil))), rfl⟩
  have hset : IsSetUp (Settings.make [] []) false ⟨.ofString "debug", .ofString "JsOn", .bool true⟩
      ⟨.debug, [⟨some .json, .debug⟩]⟩ := ⟨_, _, rfl, hlevel, hformat⟩
  rw [heffect, (hlast _ (by rw [hdone]; rfl) _).1 hset]

end RowQuery.Root
