import RowQuery.Proofs.Command.Arguments
import RowQuery.Proofs.Command.Printing
import RowQuery.Proofs.Log.Setup
import RowQuery.Proofs.Log.Timing
import RowQuery.Proofs.Options.Rebuilding

/-!
# Building from the command line

The command that builds a query reports to the log around it, and prints it afterwards. Main statement:
once the query has a query string, nothing more can fail but the location that a URL needs, and the stream
that the line is printed to.
-/

namespace RowQuery

open RowQuery.Action (effect)

set_option autoImplicit false

namespace Command

/-- The reports around a build change nothing in what it returns. -/
theorem effect_buildTimed {o : Options} {table : Value} {qs : Text} (hbuilt : o.build.result = .ok ())
    (hqs : o.build.state.toQueryString = .ok qs) (p : Printed) :
    effect (buildTimed o [(.ofString "table", table)]) p = (.ok (qs, o.build.state), p) := by
  have happly : effect o.apply (Store.empty Parameter.filters.name) = (.ok (), o.build.state) :=
    Prod.ext hbuilt rfl
  have hbody : effect (o.apply >>= fun _ => Store.rendered) (Store.empty Parameter.filters.name) =
      (.ok qs, o.build.state) := by
    rw [Action.effect_bind, happly, Action.andThen_ok, Store.effect_rendered hqs]
  let t : Timing :=
    ⟨"build_query", Options.logger, .debug, [(.ofString "table", table)], Binary64.zero, Binary64.zero⟩
  have hcheck : t.check = .ok () := rfl
  have htaken : Event.taken? t.context = none := rfl
  have hrun := Timing.effect_run p.root.level hcheck htaken hbody
  have heffect : effect (buildTimed o t.context) p =
      ((effect (t.run p.root.level _) _).1.map fun text => (text, (effect (t.run p.root.level _) _).2.state),
        p) := rfl
  rw [heffect, hrun]
  rfl

/-- What succeeds is followed by the next step; the handler is not called. -/
theorem effect_orElse {α : Type} {x : Action Printed α} {onOwn : Raised → Action Printed Nat}
    {next : α → Action Printed Nat} {p p' : Printed} {a : α} (h : effect x p = (.ok a, p')) :
    effect (orElse x onOwn next) p = effect (next a) p' := by
  have hresult : (x p).result = .ok a := congrArg Prod.fst h
  have hstate : (x p).state = p' := congrArg Prod.snd h
  unfold effect orElse
  simp only [hresult, hstate]

/-- A query that is built and has a query string is printed, and the exit code is zero if the stream takes
the line. -/
theorem effect_runBuild (stream : Stream) {settings : Settings} {o : Options} {table : Option Text}
    {form : Form} {qs : Text} (hbuilt : o.build.result = .ok ())
    (hqs : o.build.state.toQueryString = .ok qs) (htable : ∀ t, table = some t → t.isWellFormed = true)
    (hurl : form = .url → Locates settings table) (p : Printed) :
    ∃ t, Prints stream settings table qs form t ∧
      (settings.baseUrl.isWellFormed = true → t.isWellFormed = true) ∧
      effect (runBuild stream settings o table form) p =
        ((stream.after (t ++ [.scalar '\n']) p).1.map fun _ => 0,
          (stream.after (t ++ [.scalar '\n']) p).2) := by
  obtain ⟨c, hc, hstate⟩ := Options.exists_contents hbuilt
  have hslots : c.toStore.toQueryString = .ok qs := hstate ▸ hqs
  obtain ⟨t, ht, hwell, hprint⟩ :=
    effect_printQuery (Contents.sound_slots (Options.read_contents hc)) hslots htable hurl p
  change effect (printQuery stream settings (table.elim .null .text) form qs c.toStore) p = _ at hprint
  rw [← hstate] at hprint
  refine ⟨t, ht, hwell, ?_⟩
  unfold runBuild
  rw [effect_orElse (effect_buildTimed hbuilt hqs p), Action.effect_bind, hprint]
  exact Action.andThen_pure (fun _ => 0) _

/-! ## Runs -/

/-- The command that arguments name, with its arguments. -/
def requested (args : List Text) : Option Request :=
  match (Arguments.read commonSpecs false args).map Arguments.Parsed.operands with
  | some (name :: rest) => (reader? name).bind fun readRequest => readRequest rest
  | _ => none

/-- A run reports on the command that the arguments name, after the logging is set up. -/
theorem run_of_requested {args : List Text} {request : Request} (h : requested args = some request)
    (stream : Stream) (settings : Settings) :
    ∃ (root : Root) (events : List Event),
      run stream settings args =
        let o := request.run stream settings ⟨[], [], root⟩
        report { o with events := events ++ o.events } := by
  unfold requested at h
  unfold run
  cases hcommon : Arguments.read commonSpecs false args with
  | none =>
    rw [hcommon] at h
    cases h
  | some common =>
    rw [hcommon] at h
    cases hoperands : common.operands with
    | nil =>
      simp [hoperands] at h
    | cons name rest =>
      simp only [Option.map_some, hoperands] at h
      obtain ⟨readRequest, hreader, hrequest⟩ := Option.bind_eq_some_iff.1 h
      refine ⟨(setup settings common).state, (setup settings common).events, ?_⟩
      simp only [hoperands, hreader, hrequest]

/-- The table of a request is the last one that the arguments give. -/
theorem exists_parsed_of_readBuild {args : List Text} {o : Options} {table : Option Text} {form : Form}
    (h : readBuild args = some (.build o table form)) :
    ∃ p, Arguments.read buildSpecs true args = some p ∧ table = p.last? .table := by
  obtain ⟨p, hp, h⟩ := Option.bind_eq_some_iff.1 h
  dsimp only at h
  split at h
  · cases h
  · obtain ⟨limit, -, h⟩ := Option.bind_eq_some_iff.1 h
    obtain ⟨offset, -, h⟩ := Option.bind_eq_some_iff.1 h
    cases h
    exact ⟨p, hp, rfl⟩

/-- The arguments of one command are never read as a request of the other. -/
theorem readDecode_ne_build (args : List Text) (o : Options) (table : Option Text) (form : Form) :
    readDecode args ≠ some (.build o table form) := by
  intro h
  obtain ⟨p, -, h⟩ := Option.bind_eq_some_iff.1 h
  split at h <;> cases h

theorem isWellFormed_table {args : List Text} (hargs : ∀ arg ∈ args, arg.isWellFormed = true)
    {o : Options} {table : Option Text} {form : Form} (h : requested args = some (.build o table form)) :
    ∀ t, table = some t → t.isWellFormed = true := by
  unfold requested at h
  split at h
  · next name rest hcommon =>
    obtain ⟨common, hcommon, hoperands⟩ := Option.map_eq_some_iff.1 hcommon
    have hrest := (Arguments.areWellFormed_read hargs hcommon).2
    rw [hoperands, List.forall_mem_cons] at hrest
    obtain ⟨readRequest, hreader, hrequest⟩ := Option.bind_eq_some_iff.1 h
    unfold reader? at hreader
    split at hreader
    · cases hreader
      obtain ⟨p, hp, rfl⟩ := exists_parsed_of_readBuild hrequest
      exact fun t ht => Arguments.isWellFormed_last (Arguments.areWellFormed_read hrest.2 hp).1 ht
    · split at hreader <;> cases hreader
      exact absurd hrequest (readDecode_ne_build _ _ _ _)
  · cases h

/-- A run that prints a line, and that no error ends. -/
def Report.Prints (r : Report) (line : Text) : Prop :=
  r.exitCode = 0 ∧ r.console = [] ∧ r.output = some line ∧ r.escaped = none

/-- A run that an error ends, and that prints nothing. -/
def Report.EndsWith (r : Report) (e : Failure) : Prop :=
  r.exitCode = 1 ∧ r.output = some [] ∧ r.escaped = some e

/-- Once the query of a request to build is built and has a query string, there is a line that prints it in
the form that is asked for; a URL needs settings that locate the request. If the stream takes the line, the
run ends with exit code zero, shows nothing on the console and prints the line, and no error ends it.
Otherwise the run ends with the failure of the stream. A stream in UTF-8 takes the line, unless the base URL
holds a lone surrogate half. -/
theorem run_of_built (stream : Stream) {settings : Settings} {args : List Text} {o : Options}
    {table : Option Text} {form : Form} {qs : Text} (hargs : ∀ arg ∈ args, arg.isWellFormed = true)
    (hrequest : requested args = some (.build o table form)) (hbuilt : o.build.result = .ok ())
    (hqs : o.build.state.toQueryString = .ok qs) (hurl : form = .url → Locates settings table) :
    ∃ t, Prints stream settings table qs form t ∧
      (stream.refusal (t ++ [.scalar '\n']) = none →
        (run stream settings args).Prints (t ++ [.scalar '\n'])) ∧
      (∀ e, stream.refusal (t ++ [.scalar '\n']) = some e → (run stream settings args).EndsWith e) ∧
      (settings.baseUrl.isWellFormed = true → Stream.utf8.refusal (t ++ [.scalar '\n']) = none) := by
  obtain ⟨root, events, hrun⟩ := run_of_requested hrequest stream settings
  obtain ⟨t, ht, hwell, heffect⟩ :=
    effect_runBuild stream hbuilt hqs (isWellFormed_table hargs hrequest) hurl ⟨[], [], root⟩
  have hresult : (runBuild stream settings o table form ⟨[], [], root⟩).result = _ :=
    congrArg Prod.fst heffect
  have hstate : (runBuild stream settings o table form ⟨[], [], root⟩).state = _ :=
    congrArg Prod.snd heffect
  refine ⟨t, ht, fun htaken => ?_, fun e hrefused => ?_, fun hbase => ?_⟩
  · simp only [Stream.after, htaken] at hresult hstate
    rw [hrun]
    simp only [Report.Prints, Request.run, report, hresult, hstate, Except.map, List.nil_append, and_self]
  · simp only [Stream.after, hrefused] at hresult hstate
    rw [hrun]
    simp only [Report.EndsWith, Request.run, report, hresult, hstate, Except.map, and_self]
  · exact Stream.refusal_utf8 (by simp [hwell hbase])

/-- Arguments that ask for the URL of a search, without a table. -/
def searchUrl : List Text := ["build", "--search", "pizza", "--url"]

def searchOptions : Options :=
  { Options.none with
    search := .ofString "pizza"
    exact := .bool false
    sort := .list []
    select := .list []
    filters := .list []
    includeCount := .bool false }

theorem requested_searchUrl : requested searchUrl = some (.build searchOptions none .url) := by rfl

theorem built_searchOptions :
    searchOptions.build.result = .ok () ∧ searchOptions.build.state.toQueryString = .ok "q=pizza" := by
  have hcontents : searchOptions.contents =
      .ok ⟨some (.ofString "pizza"), [], [], [], none, none, false, none⟩ := by rfl
  obtain ⟨hbuilt, hstate⟩ := Options.build_of_contents hcontents
  rw [hstate]
  exact ⟨hbuilt, by rfl⟩

theorem run_of_built_searchUrl :
    ∃ t, Prints .utf8 (Settings.make [] []) none "q=pizza" .url t ∧
      (run .utf8 (Settings.make [] []) searchUrl).Prints (t ++ [.scalar '\n']) := by
  have hlocates : Locates (Settings.make [] []) none := ⟨fun _ => nofun, fun _ => rfl⟩
  obtain ⟨t, ht, hprints, -, htaken⟩ :=
    run_of_built .utf8 (by decide) requested_searchUrl built_searchOptions.1 built_searchOptions.2
      fun _ => hlocates
  exact ⟨t, ht, hprints (htaken rfl)⟩

def namelessTable : Settings := Settings.make [("FACTUAL_DEFAULT_TABLE", [])] []

/-- Settings whose default table holds a lone surrogate half. -/
def brokenTable : Settings := Settings.make [("FACTUAL_DEFAULT_TABLE", [.ofNat 0xDCFF])] []

/-- Settings whose base URL holds a lone surrogate half. -/
def brokenBase : Settings := Settings.make [("FACTUAL_API_BASE_URL", [.ofNat 0xDCFF])] []

/-- The query is built, but nothing is printed where the default table has no name, where that table holds a
lone surrogate half, or where the stream does not take the base URL. -/
theorem searchUrl_not_located :
    (∀ arg ∈ searchUrl, arg.isWellFormed = true) ∧
    requested searchUrl = some (.build searchOptions none .url) ∧
    searchOptions.build.result = .ok () ∧
    searchOptions.build.state.toQueryString = .ok "q=pizza" ∧
    (run .utf8 namelessTable searchUrl).EndsWith (.argument .emptyTable) ∧
    (run .utf8 brokenTable searchUrl).EndsWith
      (.defect (.unrenderable (.unencodable (.ofNat 0xDCFF) 0 0))) ∧
    (run .utf8 brokenBase searchUrl).EndsWith
      (.defect (.unrenderable (.unencodable (.ofNat 0xDCFF) 0 0))) :=
  ⟨by decide, requested_searchUrl, built_searchOptions.1, built_searchOptions.2, ⟨rfl, rfl, rfl⟩,
    ⟨rfl, rfl, rfl⟩, ⟨rfl, rfl, rfl⟩⟩

end Command

end RowQuery
