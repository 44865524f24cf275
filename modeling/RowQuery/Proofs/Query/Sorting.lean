import RowQuery.Proofs.Query.Atomicity
import RowQuery.Proofs.Query.Blending
import RowQuery.Proofs.Text.Pieces
import RowQuery.Proofs.Url.Form

/-!
# Sorts of queries

A query is sorted by fields, each in one direction, and by blends of place rank and distance. The sorts are
joined by commas, and a blend holds a comma itself. Main statement: the sorts can be told from the text that
they leave all the same, since no piece between commas belongs to both kinds.
-/

namespace RowQuery

open RowQuery.Action (effect Fails)
open Json (Numeral)

set_option autoImplicit false

/-! ## Sorts and their texts -/

/-- What a query is sorted by: a field in one direction, or a blend, given by the texts of its weights. -/
inductive SortKey where
  | field (name : Text) (direction : Direction)
  | blend (rank distance : Text)

namespace SortKey

/-- What the sort is called on the wire. -/
def token : SortKey → Text
  | field name direction => Query.sortToken name direction
  | blend rank distance => Query.blendToken rank distance

/-- What stands between commas in the name of the sort. -/
def pieces : SortKey → List Text
  | field name direction => [Query.sortToken name direction]
  | blend rank distance =>
    [Text.ofString "\x7b\"placerank\":" ++ rank,
      Text.ofString "\"distance\":" ++ distance ++ Text.ofString "\x7d"]

/-- The field holds no comma, and the weights hold only what numbers do. -/
def IsPlain : SortKey → Prop
  | field name _ => CodePoint.scalar ',' ∉ name
  | blend rank distance => (∀ c ∈ rank, Numeral.IsPart c) ∧ ∀ c ∈ distance, Numeral.IsPart c

theorem pieces_ne_nil (k : SortKey) : k.pieces ≠ [] := by
  cases k <;> exact nofun

theorem join_pieces (k : SortKey) : Text.join [.scalar ','] k.pieces = k.token := by
  cases k with
  | field name direction => exact List.intercalate_singleton
  | blend rank distance =>
    have hcomma : Text.ofString ",\"distance\":" = .scalar ',' :: Text.ofString "\"distance\":" := rfl
    simp [pieces, token, Text.join, Query.blendToken, List.intercalate_cons_cons, hcomma]

/-- Sorts joined by commas are their pieces joined by commas. -/
theorem join_flatMap_pieces (keys : List SortKey) :
    Text.join [.scalar ','] (keys.flatMap pieces) = Text.join [.scalar ','] (keys.map token) := by
  induction keys with
  | nil => rfl
  | cons k keys ih =>
    rw [List.flatMap_cons, List.map_cons]
    cases keys with
    | nil =>
      rw [List.flatMap_nil, List.append_nil, join_pieces]
      exact List.intercalate_singleton.symm
    | cons l keys =>
      have hrest : (l :: keys).flatMap pieces ≠ [] := by simp [pieces_ne_nil l]
      rw [Text.join_append k.pieces_ne_nil hrest, join_pieces, ih]
      exact (List.intercalate_cons_of_ne_nil (List.cons_ne_nil _ _)).symm

theorem not_isPart_comma : ¬ Numeral.IsPart (.scalar ',') := by
  unfold Numeral.IsPart
  decide

theorem IsPlain.notMem_pieces {k : SortKey} (h : k.IsPlain) :
    ∀ piece ∈ k.pieces, CodePoint.scalar ',' ∉ piece := by
  cases k with
  | field name direction =>
    have hwire : CodePoint.scalar ',' ∉ direction.wire := by cases direction <;> decide
    refine List.forall_mem_singleton.2 fun hmem => ?_
    rcases List.mem_append.1 hmem with hname | htail
    · exact h hname
    · rcases List.mem_cons.1 htail with hcolon | hdirection
      · exact absurd hcolon (by decide)
      · exact hwire hdirection
  | blend rank distance =>
    have hrank : CodePoint.scalar ',' ∉ rank := fun hmem => not_isPart_comma (h.1 _ hmem)
    have hdistance : CodePoint.scalar ',' ∉ distance := fun hmem => not_isPart_comma (h.2 _ hmem)
    refine List.forall_mem_cons.2 ⟨?_, List.forall_mem_singleton.2 ?_⟩
    · exact List.not_mem_append (by decide) hrank
    · exact List.not_mem_append (List.not_mem_append (by decide) hdistance) (by decide)

/-- A field and its direction can be told from the name of the sort, whatever colons the field holds. -/
theorem sortToken_inj {name name' : Text} {direction direction' : Direction}
    (h : Query.sortToken name direction = Query.sortToken name' direction') :
    name = name' ∧ direction = direction' := by
  have hcolon : ∀ (t : Text) (d : Direction),
      Query.sortToken t d = (t ++ [.scalar ':']) ++ d.wire := fun t d => by simp [Query.sortToken]
  cases direction <;> cases direction'
  · exact ⟨List.append_cancel_right h, rfl⟩
  · -- Four characters from the end one of them has a colon and the other one has a letter.
    rw [hcolon name' .desc] at h
    exact absurd (List.append_inj_right' h rfl) (by decide)
  · rw [hcolon name .desc] at h
    exact absurd (List.append_inj_right' h rfl) (by decide)
  · exact ⟨List.append_cancel_right h, rfl⟩

/-- A sort by a field ends in a letter, and what stands before the comma of a blend does not. -/
theorem sortToken_ne_blend {name rank : Text} {direction : Direction} (h : ∀ c ∈ rank, Numeral.IsPart c) :
    Query.sortToken name direction ≠ Text.ofString "\x7b\"placerank\":" ++ rank := by
  intro heq
  have hletter : (Query.sortToken name direction).getLast? = some (.scalar 'c') := by
    cases direction <;> simp [Query.sortToken, Direction.wire, Direction.words, Text.ofString, Text.ofChars]
  rw [heq, List.getLast?_append] at hletter
  cases hlast : rank.getLast? with
  | none =>
    rw [hlast] at hletter
    exact absurd hletter (by decide)
  | some c =>
    rw [hlast] at hletter
    cases hletter
    have hpart := h _ (List.mem_of_getLast? hlast)
    exact absurd hpart (by unfold Numeral.IsPart; decide)

/-- The first sort can be told from pieces that start with its own. -/
theorem pieces_append_inj {k l : SortKey} (hk : k.IsPlain) (hl : l.IsPlain) {ps qs : List Text}
    (h : k.pieces ++ ps = l.pieces ++ qs) : k = l ∧ ps = qs := by
  cases k with
  | field name direction =>
    cases l with
    | field name' direction' =>
      obtain ⟨hpiece, hrest⟩ := List.cons.inj h
      obtain ⟨rfl, rfl⟩ := sortToken_inj hpiece
      exact ⟨rfl, hrest⟩
    | blend rank distance => exact absurd (List.cons.inj h).1 (sortToken_ne_blend hl.1)
  | blend rank distance =>
    cases l with
    | field name direction => exact absurd (List.cons.inj h).1.symm (sortToken_ne_blend hk.1)
    | blend rank' distance' =>
      obtain ⟨hfirst, htail⟩ := List.cons.inj h
      obtain ⟨hsecond, hrest⟩ := List.cons.inj htail
      obtain rfl : rank = rank' := List.append_cancel_left hfirst
      obtain rfl : distance = distance' := List.append_cancel_left (List.append_cancel_right hsecond)
      exact ⟨rfl, hrest⟩

/-- The pieces of plain sorts tell the sorts, since a blend starts and ends as no field can. -/
theorem flatMap_pieces_inj {keys keys' : List SortKey} (h : ∀ k ∈ keys, k.IsPlain)
    (h' : ∀ k ∈ keys', k.IsPlain) (heq : keys.flatMap pieces = keys'.flatMap pieces) : keys = keys' := by
  induction keys generalizing keys' with
  | nil =>
    cases keys' with
    | nil => rfl
    | cons l keys' => exact absurd (List.append_eq_nil_iff.1 heq.symm).1 l.pieces_ne_nil
  | cons k keys ih =>
    cases keys' with
    | nil => exact absurd (List.append_eq_nil_iff.1 heq).1 k.pieces_ne_nil
    | cons l keys' =>
      obtain ⟨hk, hkeys⟩ := List.forall_mem_cons.1 h
      obtain ⟨hl, hkeys'⟩ := List.forall_mem_cons.1 h'
      obtain ⟨rfl, hrest⟩ := pieces_append_inj hk hl heq
      rw [ih hkeys hkeys' hrest]

/-- Joined names are cut at every comma, those inside of blends too. -/
theorem split_join_token {keys : List SortKey} (hne : keys ≠ []) (h : ∀ k ∈ keys, k.IsPlain) :
    Text.split (.scalar ',') (Text.join [.scalar ','] (keys.map token)) = keys.flatMap pieces := by
  have hpieces : ∀ piece ∈ keys.flatMap pieces, CodePoint.scalar ',' ∉ piece := by
    intro piece hmem
    obtain ⟨k, hk, hpiece⟩ := List.mem_flatMap.1 hmem
    exact (h k hk).notMem_pieces piece hpiece
  have hsome : keys.flatMap pieces ≠ [] := by
    obtain ⟨k, keys, rfl⟩ := List.exists_cons_of_ne_nil hne
    simp [pieces_ne_nil k]
  rw [← join_flatMap_pieces]
  obtain ⟨piece, rest, hcons⟩ := List.exists_cons_of_ne_nil hsome
  rw [hcons] at hpieces ⊢
  exact Text.split_join hpieces

/-- Sorts can be told from their joined names. -/
theorem eq_of_join_token {keys keys' : List SortKey} (hne : keys ≠ []) (hne' : keys' ≠ [])
    (h : ∀ k ∈ keys, k.IsPlain) (h' : ∀ k ∈ keys', k.IsPlain)
    (heq : Text.join [.scalar ','] (keys.map token) = Text.join [.scalar ','] (keys'.map token)) :
    keys = keys' := by
  refine flatMap_pieces_inj h h' ?_
  rw [← split_join_token hne h, heq, split_join_token hne' h']

end SortKey

/-! ## Runs of sorts -/

namespace Store

def sortText? (s : Store) : Option (Except RenderFailure Text) :=
  (s.get? (.text Parameter.sort.name)).map Entry.render

/-- The query has the given sorts, in order. -/
structure SortedBy (s : Store) (keys : List SortKey) : Prop where
  lists : s.Lists .sort
  listed : s.listed .sort = keys.map fun k => .text k.token

variable {s : Store} {keys : List SortKey}

theorem sortedBy_fresh (self : Text) : (Family.fresh.get self).SortedBy [] := ⟨nofun, rfl⟩

/-- One more sort comes last. -/
theorem SortedBy.addSort (h : s.SortedBy keys) (k : SortKey) :
    (s.addSort k.token).SortedBy (keys ++ [k]) := by
  refine ⟨lists_put s .sort _, ?_⟩
  rw [Store.addSort, listed_put, h.listed, List.map_append, List.map_singleton]

theorem SortedBy.withQueries (h : s.SortedBy keys) (f : Text → QueryHandle) :
    (s.withQueries f).SortedBy keys := by
  refine ⟨h.lists.withQueries f, ?_⟩
  rw [listed_withQueries, h.listed, List.map_map]
  rfl

theorem SortedBy.sortText? (h : s.SortedBy keys) (hne : keys ≠ []) :
    s.sortText? = some (.ok (Text.join [.scalar ','] (keys.map SortKey.token))) := by
  have hlisted : s.listed .sort ≠ [] := by
    rw [h.listed]
    simpa using hne
  have hentry : s.get? (.text Parameter.sort.name) = some (.commaList (s.listed .sort)) :=
    h.lists.get?.resolve_left fun hnone => hlisted hnone.2
  have htexts : s.listed .sort = (keys.map SortKey.token).map .text := by rw [h.listed, List.map_map]; rfl
  rw [Store.sortText?, hentry, htexts]
  exact congrArg some (Entry.render_texts _)

end Store

namespace Query

/-- A call that sorts: by a field whose text holds no comma, or by a blend. -/
def Call.Sorts : Call → Prop
  | sort _ field => ∀ t, field.display = .ok t → CodePoint.scalar ',' ∉ t
  | sortBlend .. => True
  | _ => False

/-- What a call sorts by, if it sorts and its arguments have texts. -/
def Call.sortKey? : Call → Option SortKey
  | sort direction field => field.display.toOption.map (SortKey.field · direction)
  | sortBlend rank distance => do
    let r ← rank.render.toOption
    let d ← distance.render.toOption
    some (.blend r d)
  | _ => none

theorem effect_sort {field : Value} {t : Text} (ht : field.display = .ok t) (direction : Direction)
    {s : Store} (hs : s.Lists .sort) :
    effect (Query.sort direction field) s = (.ok (), s.addSort (sortToken t direction)) := by
  have hdisplayed : field.displayed = .ok ⟨field, t⟩ := by rw [Value.displayed, ht]
  have happend := Store.effect_appendParameter hs (v := .text (sortToken t direction)) rfl
  rw [Query.sort, Action.effect_bind, Action.effect_displayed, hdisplayed, Action.andThen_ok]
  exact happend

theorem fails_sort {field : Value} {e : Failure} (he : field.displayed = .error e) (direction : Direction)
    (s : Store) : Fails (Query.sort direction field) s :=
  Action.Fails.bind ⟨e, by rw [Action.effect_displayed, he]⟩ _

/-- A call that sorts is one method of its query, which fails or adds the sort after the others. -/
theorem Call.sorts_cases {c : Call} (hc : c.Sorts) (self : Text) :
    ∃ x : Action Store Unit, c.run self = Family.focus self x ∧ ∀ s : Store, s.Lists .sort →
      Fails x s ∨ ∃ k, c.sortKey? = some k ∧ k.IsPlain ∧ effect x s = (.ok (), s.addSort k.token) := by
  cases c with
  | sort direction field =>
    refine ⟨_, rfl, fun s hs => ?_⟩
    cases ht : field.display with
    | error f =>
      have hdisplayed : field.displayed = .error f := by rw [Value.displayed, ht]
      exact .inl (fails_sort hdisplayed direction s)
    | ok t =>
      have hkey : (Call.sort direction field).sortKey? = some (.field t direction) := by
        rw [Call.sortKey?, ht]
        rfl
      exact .inr ⟨.field t direction, hkey, hc t ht, effect_sort ht direction hs⟩
  | sortBlend r d =>
    refine ⟨_, rfl, fun s hs => ?_⟩
    by_cases hweights : r.IsWeight ∧ d.IsWeight
    · obtain ⟨m, hrank, -⟩ := hweights.1.render
      obtain ⟨n, hdistance, -⟩ := hweights.2.render
      have hkey : (Call.sortBlend r d).sortKey? = some (.blend m.text n.text) := by
        rw [Call.sortKey?, hrank, hdistance]
        rfl
      exact .inr ⟨.blend m.text n.text, hkey, ⟨m.isPart_of_mem_text, n.isPart_of_mem_text⟩,
        effect_sortBlend hweights.1 hweights.2 hrank hdistance hs⟩
    · exact .inl (fails_sortBlend hweights s)
  | _ => exact hc.elim

/-- A call that sorts and succeeds adds its sort after the others. -/
theorem sortedBy_step {c : Call} (hc : c.Sorts) {self : Text} {family after : Family}
    {keys : List SortKey} (hs : (family.get self).SortedBy keys)
    (hstep : effect (step self c) family = (.ok (), after)) :
    ∃ k, c.sortKey? = some k ∧ k.IsPlain ∧ (after.get self).SortedBy (keys ++ [k]) := by
  have hbefore : ((family.refresh self).get self).SortedBy keys := by
    rw [Family.get_refresh_self]
    exact hs.withQueries _
  obtain ⟨x, hx, hcases⟩ := Call.sorts_cases hc self
  rw [step, Family.effect_upToDate, hx, Family.effect_focus] at hstep
  rcases hcases _ hbefore.lists with ⟨e, he⟩ | ⟨k, hkey, hplain, hadded⟩
  · rw [he] at hstep
    cases hstep
  · rw [hadded] at hstep
    cases hstep
    refine ⟨k, hkey, hplain, ?_⟩
    rw [Family.get_refresh_self, Family.current, Family.get_put_same]
    exact (hbefore.addSort k).withQueries _

/-- Calls that sort, one after the other, as long as they succeed. -/
def sortAll (self : Text) (calls : List Call) : Action Family Unit := Action.forEach (step self) calls

/-- Calls that succeed add their sorts in order. -/
theorem sortedBy_sortAll {calls : List Call} (hcalls : ∀ c ∈ calls, c.Sorts) {self : Text}
    {family after : Family} {keys : List SortKey} (hs : (family.get self).SortedBy keys)
    (hrun : effect (sortAll self calls) family = (.ok (), after)) :
    ∃ added, calls.map Call.sortKey? = added.map some ∧ (∀ k ∈ added, k.IsPlain) ∧
      (after.get self).SortedBy (keys ++ added) := by
  induction calls generalizing family keys with
  | nil =>
    cases hrun
    exact ⟨[], rfl, nofun, by rwa [List.append_nil]⟩
  | cons c calls ih =>
    obtain ⟨hc, hrest⟩ := List.forall_mem_cons.1 hcalls
    have hbind : effect (sortAll self (c :: calls)) family =
        Action.andThen (fun _ => sortAll self calls) (effect (step self c) family) :=
      Action.effect_bind _ _ family
    rw [hbind] at hrun
    rcases hstep : effect (step self c) family with ⟨_ | _, between⟩ <;> rw [hstep] at hrun
    · cases hrun
    · obtain ⟨k, hkey, hplain, hsorted⟩ := sortedBy_step hc hs hstep
      obtain ⟨added, hkeys, hadded, hafter⟩ := ih hrest hsorted hrun
      refine ⟨k :: added, ?_, List.forall_mem_cons.2 ⟨hplain, hadded⟩, ?_⟩
      · rw [List.map_cons, hkey, hkeys, List.map_cons]
      · rwa [List.append_assoc, List.singleton_append] at hafter

/-- Two queries that are sorted by successful calls, and by nothing else, have the same text of sorts only if
the calls sorted by the same: as many times, and each time by the same field in the same direction or by the
same texts of weights. -/
theorem sortKeys_of_sortText {self self' : Text} {calls calls' : List Call} {after after' : Family}
    (hne : calls ≠ []) (hne' : calls' ≠ []) (hcalls : ∀ c ∈ calls, c.Sorts)
    (hcalls' : ∀ c ∈ calls', c.Sorts)
    (hrun : effect (sortAll self calls) Family.fresh = (.ok (), after))
    (hrun' : effect (sortAll self' calls') Family.fresh = (.ok (), after'))
    (htext : (after.get self).sortText? = (after'.get self').sortText?) :
    ∃ keys : List SortKey, calls.map Call.sortKey? = keys.map some ∧
      calls'.map Call.sortKey? = keys.map some ∧
      (after.get self).sortText? = some (.ok (Text.join [.scalar ','] (keys.map SortKey.token))) := by
  have hsome : ∀ {calls : List Call} {keys : List SortKey}, calls ≠ [] →
      calls.map Call.sortKey? = keys.map some → keys ≠ [] := by
    rintro calls _ hcalls hkeys rfl
    exact hcalls (List.map_eq_nil_iff.1 hkeys)
  obtain ⟨keys, hkeys, hplain, hsorted⟩ := sortedBy_sortAll hcalls (Store.sortedBy_fresh self) hrun
  obtain ⟨keys', hkeys', hplain', hsorted'⟩ := sortedBy_sortAll hcalls' (Store.sortedBy_fresh self') hrun'
  rw [List.nil_append] at hsorted hsorted'
  have hjoin := hsorted.sortText? (hsome hne hkeys)
  have hsame := hjoin.symm.trans (htext.trans (hsorted'.sortText? (hsome hne' hkeys')))
  obtain rfl : keys = keys' := SortKey.eq_of_join_token (hsome hne hkeys) (hsome hne' hkeys') hplain
    hplain' (Except.ok.inj (Option.some.inj hsame))
  exact ⟨keys, hkeys, hkeys', hjoin⟩

/-- A field that looks like the start of a blend, and then a blend. -/
def disguised (x : Binary64) : List Call :=
  [.sort .asc (.ofString "\x7b\"placerank\":1"), .sortBlend (.int 1) (.float x)]

theorem effect_disguised {x : Binary64} (hx : x.isFinite = true) :
    ∃ after, effect (sortAll "q" (disguised x)) Family.fresh = (.ok (), after) ∧
      (after.get "q").sortText? = some (.ok (Text.join [.scalar ',']
        [sortToken "\x7b\"placerank\":1" .asc, blendToken "1" x.toFixed])) := by
  cases x with
  | undefined | infinite => cases hx
  | finite => exact ⟨_, rfl, rfl⟩

/-- Two distances whose texts are the same. -/
theorem sortKeys_of_sortText_disguised :
    ∃ after, effect (sortAll "q" (disguised tiny)) Family.fresh = (.ok (), after) ∧
      ∃ keys : List SortKey, (disguised tiny).map Call.sortKey? = keys.map some ∧
        (disguised (.finite true ⟨0, by decide⟩)).map Call.sortKey? = keys.map some ∧
        (after.get "q").sortText? = some (.ok (Text.join [.scalar ','] (keys.map SortKey.token))) := by
  have hzero : (Binary64.finite true ⟨0, by decide⟩).toFixed = tiny.toFixed := by decide +kernel
  have hsorts : ∀ x, ∀ c ∈ disguised x, c.Sorts := by
    refine fun x => List.forall_mem_cons.2 ⟨?_, List.forall_mem_singleton.2 trivial⟩
    rintro _ ⟨⟩
    decide
  obtain ⟨after, hrun, htext⟩ := effect_disguised (x := tiny) rfl
  obtain ⟨after', hrun', htext'⟩ := effect_disguised (x := .finite true ⟨0, by decide⟩) rfl
  exact ⟨after, hrun, sortKeys_of_sortText (List.cons_ne_nil _ _) (List.cons_ne_nil _ _) (hsorts _)
    (hsorts _) hrun hrun' (by rw [htext, htext', hzero])⟩

end Query

end RowQuery
