import Mathlib.Data.List.Forall2
import RowQuery.Proofs.Store.Locality

/-!
# Independent keys

Runs of calls of one store, among stores that stay as they are. The arguments of a call are those of the
moment of the call: a query in them shows the text that it has then, which may be that of the store
itself. Main statement: what stands under a key, and which calls on this key fail, does not depend on
the calls on other keys; their errors are the same too unless they show the store itself. So two calls
on different keys that are there already may change places.
-/

namespace RowQuery

open RowQuery.Action (effect)

set_option autoImplicit false

variable {family : Family} {self filtersKey : Text} {s t : Store}

/-- A value looks the same whatever the store of a name holds: no query in it shows the store. -/
def Value.Steady (family : Family) (self : Text) (v : Value) : Prop :=
  ∀ s t : Store, v.withQueries (family.put self s).handle = v.withQueries (family.put self t).handle

theorem Value.steady_text (family : Family) (self k : Text) :
    (Value.text k).Steady family self := by
  intro s t
  show Value.text k = Value.text k
  rfl

/-! ## One store of a family -/

namespace Family

theorem length_insertMember (members : List (Text × Store)) (name : Text) (s t : Store) :
    (insertMember members name s).length = (insertMember members name t).length := by
  induction members with
  | nil => rfl
  | cons m ms ih =>
    obtain ⟨n, u⟩ := m
    rw [insertMember, insertMember]
    split
    · rfl
    · rw [List.length_cons, List.length_cons, ih]

/-- Stores that are the same look the same inside queries. -/
theorem handle_put_congr (family : Family) (self : Text) (h : s.Same t) :
    (family.put self s).handle = (family.put self t).handle := by
  have hwithin : ∀ depth, (family.put self s).handleWithin depth =
      (family.put self t).handleWithin depth := by
    intro depth
    induction depth with
    | zero => rfl
    | succ depth ih =>
      funext name
      have hstore : ((family.put self s).get name).withQueries
          ((family.put self s).handleWithin depth) =
            ((family.put self t).get name).withQueries
              ((family.put self t).handleWithin depth) := by
        rw [ih]
        by_cases hn : name = self
        · rw [hn, get_put_same, get_put_same]
          exact h _ (name_handleWithin _ _)
        · rw [get_put_other hn, get_put_other hn]
      simp only [handleWithin, hstore]
  have hdepth : (family.put self s).depth = (family.put self t).depth :=
    congrArg (· + 2) (length_insertMember family.members self s t)
  funext name
  rw [handle, handle, hdepth, hwithin]

theorem current_put (family : Family) (self : Text) (s : Store) :
    (family.put self s).current self = s.withQueries (family.put self s).handle := by
  rw [current, get_put_same]

theorem refresh_put (family : Family) (self : Text) (s : Store) :
    (family.put self s).refresh self =
      family.put self (s.withQueries (family.put self s).handle) := by
  rw [refresh_eq, current_put, put_put]

theorem same_current (family : Family) (self : Text) (s : Store) :
    (s.withQueries (family.put self s).handle).Same s :=
  Store.same_withQueries (name_handle _) s

end Family

namespace Store

/-- A write of the same entry keeps two stores alike under every key. -/
theorem entry_same_write? {key k : Value} {w w' : Option Entry} (hw : Entry.Same w w')
    (h : Entry.Same (s.get? k) (t.get? k)) :
    Entry.Same ((s.write? key w).get? k) ((t.write? key w').get? k) := by
  have hentry := hw _ name_blankQueries
  cases w with
  | none =>
    cases w' with
    | none => exact h
    | some e' => cases hentry
  | some e =>
    cases w' with
    | none => cases hentry
    | some e' =>
      cases hkey : Value.sameKey key k with
      | true => rwa [write?, write?, get?_put_same hkey, get?_put_same hkey]
      | false => rwa [write?, write?, get?_put_other hkey, get?_put_other hkey]

namespace Operation

/-! ## Calls at the moment -/

/-- A call of a store, with its arguments as they are at the moment of the call. -/
def liveStep (self : Text) (op : Operation) : Action Family (Option RowFilter) :=
  Family.upToDate self do
    let family ← Action.read
    (op.withQueries family.handle).run self

/-- The calls of a run with what they return. -/
def returned (self : Text) :
    Family → List Operation → List (Operation × Except Failure (Option RowFilter))
  | _, [] => []
  | family, op :: ops =>
    let (result, after) := effect (liveStep self op) family
    (op, result) :: returned self after ops

def reached (self : Text) (family : Family) (ops : List Operation) : Family :=
  ops.foldl (fun family op => (effect (liveStep self op) family).2) family

/-- A call is on a key when its target is this key. -/
def On (filtersKey : Text) (key : Value) (op : Operation) : Prop :=
  (op.target filtersKey).key = key.key

deriving instance DecidableEq for Except

instance (filtersKey : Text) (key : Value) (op : Operation) : Decidable (op.On filtersKey key) :=
  inferInstanceAs (Decidable (_ = _))

/-- The arguments of a call look the same whatever the store of a name holds. -/
def Steady (family : Family) (self : Text) (op : Operation) : Prop :=
  ∀ s t : Store,
    op.withQueries (family.put self s).handle = op.withQueries (family.put self t).handle

/-- What a call leaves behind: only its own store has changed, by the entry that was written, and it
is up to date. -/
structure Leaves (family : Family) (name : Text) (key : Value) (s : Store) (w : Option Entry)
    (after : Family) : Prop where
  others : after = family.put name (after.get name)
  written : (after.get name).Same (s.write? key w)
  current : (after.get name).withQueries after.handle = after.get name

/-- A call of the moment is the call with the queries in its arguments brought up to date. -/
theorem effect_liveStep (self : Text) (op : Operation) (family : Family) (s : Store) :
    effect (liveStep self op) (family.put self s) =
      ((effect ((op.withQueries (family.put self s).handle).run self)
          (family.put self (s.withQueries (family.put self s).handle))).1,
        (effect ((op.withQueries (family.put self s).handle).run self)
          (family.put self (s.withQueries (family.put self s).handle))).2.refresh self) := by
  rw [liveStep, Family.effect_upToDate, Action.effect_bind, Action.effect_read, Action.andThen_ok,
    Family.refresh_put, family.handle_put_congr self (family.same_current self s)]

theorem leaves_refresh {f : Text → QueryHandle} (hf : ∀ n, (f n).name = n) (family : Family)
    (self : Text) (key : Value) (s : Store) (w : Option Entry) :
    Leaves family self key s w
      ((family.put self ((s.withQueries f).write? (key.withQueries f) w)).refresh self) := by
  have hkey : (key.withQueries f).Same key := fun g _ => Value.withQueries_withQueries hf key
  have hwritten := (Store.same_withQueries hf s).write? hkey (.refl w)
  generalize (s.withQueries f).write? (key.withQueries f) w = u at hwritten ⊢
  have hsame := family.same_current self u
  rw [Family.refresh_put]
  refine ⟨?_, ?_, ?_⟩
  · rw [Family.get_put_same]
  · rw [Family.get_put_same]
    exact hsame.trans hwritten
  · rw [Family.get_put_same, family.handle_put_congr self hsame]
    exact Store.withQueries_withQueries (Family.name_handle _) u

/-- A call of two stores that hold the same under its target: both results are the same or errors, and
the same entry, if any, is written. -/
theorem leaves_liveStep {op : Operation} (h : Agree filtersKey (op.target filtersKey) s t)
    (hkey : (op.target filtersKey).Steady family self) : ∃ w w', Entry.Same w w' ∧
      SameResult (op.Steady family self) (effect (liveStep self op) (family.put self s)).1
        (effect (liveStep self op) (family.put self t)).1 ∧
      Leaves family self (op.target filtersKey) s w
        (effect (liveStep self op) (family.put self s)).2 ∧
      Leaves family self (op.target filtersKey) t w'
        (effect (liveStep self op) (family.put self t)).2 := by
  have hupdated : Agree filtersKey (op.target filtersKey)
      (s.withQueries (family.put self s).handle) (t.withQueries (family.put self t).handle) := by
    refine ⟨h.left, h.right, ?_⟩
    exact ((family.same_current self s).get? _).trans
      (h.entry.trans ((family.same_current self t).get? _).symm)
  have hs := Family.name_handle (family.put self s)
  have ht := Family.name_handle (family.put self t)
  obtain ⟨hresult, w, w', hw, hleft, hright⟩ :=
    alike_run family self hupdated hs ht (hkey s t)
  rw [effect_liveStep, effect_liveStep]
  refine ⟨w, w', hw, hresult.mono fun hsteady => hsteady s t, ?_, ?_⟩
  · show Leaves family self _ s w (Family.refresh (effect _ _).2 self)
    rw [hleft]
    exact leaves_refresh hs family self _ s w
  · show Leaves family self _ t w' (Family.refresh (effect _ _).2 self)
    rw [hright, hkey s t]
    exact leaves_refresh ht family self _ t w'

/-- What one call does alone. -/
theorem leaves_liveStep_one {op : Operation} (hs : s.rowFilterKey = filtersKey)
    (hkey : (op.target filtersKey).Steady family self) : ∃ w,
      Leaves family self (op.target filtersKey) s w
        (effect (liveStep self op) (family.put self s)).2 := by
  have hagree : Agree filtersKey (op.target filtersKey) s s := ⟨hs, hs, .refl _⟩
  obtain ⟨w, -, -, -, hleaves, -⟩ := leaves_liveStep hagree hkey
  exact ⟨w, hleaves⟩

/-! ## Runs -/

/-- The stores of two families agree on a key after a call that is on the key. -/
theorem Leaves.agree {key k : Value} {w w' : Option Entry} {after after' : Family}
    (hs : Leaves family self key s w after) (ht : Leaves family self key t w' after')
    (hw : Entry.Same w w') (h : Agree filtersKey k s t) :
    Agree filtersKey k (after.get self) (after'.get self) := by
  refine ⟨?_, ?_, ?_⟩
  · rw [hs.written.rowFilterKey, rowFilterKey_write?, h.left]
  · rw [ht.written.rowFilterKey, rowFilterKey_write?, h.right]
  · exact (hs.written.get? k).trans
      ((entry_same_write? hw h.entry).trans (ht.written.get? k).symm)

/-- And a call on another key keeps them in agreement. -/
theorem Leaves.agree_left {key k : Value} {w : Option Entry} {after : Family}
    (hs : Leaves family self key s w after) (hk : key.key ≠ k.key) (h : Agree filtersKey k s t) :
    Agree filtersKey k (after.get self) t := by
  refine ⟨?_, h.right, ?_⟩
  · rw [hs.written.rowFilterKey, rowFilterKey_write?, h.left]
  · have hget := hs.written.get? k
    rw [get?_write?_other hk] at hget
    exact hget.trans h.entry

/-- The same call, with the same result up to what the errors show of the store itself. -/
def SameReturn (family : Family) (self : Text)
    (a b : Operation × Except Failure (Option RowFilter)) : Prop :=
  a.1 = b.1 ∧ SameResult (a.1.Steady family self) a.2 b.2

/-- Calls on other keys may be left out of a run. -/
theorem agree_reached {k : Value} {ops : List Operation}
    (hkeys : ∀ op ∈ ops, (op.target filtersKey).Steady family self)
    (h : Agree filtersKey k s t) :
    Agree filtersKey k ((reached self (family.put self s) ops).get self)
        ((reached self (family.put self t) (ops.filter (On filtersKey k))).get self) ∧
      List.Forall₂ (SameReturn family self)
        ((returned self (family.put self s) ops).filter fun c => c.1.On filtersKey k)
        (returned self (family.put self t) (ops.filter (On filtersKey k))) := by
  induction ops generalizing s t with
  | nil =>
    refine ⟨?_, .nil⟩
    simpa [reached, Family.get_put_same] using h
  | cons op ops ih =>
    have hkey := hkeys op List.mem_cons_self
    have hkeys' : ∀ op ∈ ops, (op.target filtersKey).Steady family self :=
      fun op' hop => hkeys op' (List.mem_cons_of_mem _ hop)
    by_cases hon : op.On filtersKey k
    · have hentry : Agree filtersKey (op.target filtersKey) s t := by
        refine ⟨h.left, h.right, ?_⟩
        rw [get?_congr hon, get?_congr hon]
        exact h.entry
      obtain ⟨w, w', hw, hresult, hs, ht⟩ := leaves_liveStep hentry hkey
      obtain ⟨hagree, hreturned⟩ := ih hkeys' (hs.agree ht hw h)
      rw [← hs.others, ← ht.others] at hagree hreturned
      simp only [List.filter_cons, hon, decide_true, if_true, returned, reached, List.foldl_cons]
      exact ⟨hagree, .cons ⟨rfl, hresult⟩ hreturned⟩
    · obtain ⟨w, hs⟩ := leaves_liveStep_one h.left hkey
      obtain ⟨hagree, hreturned⟩ := ih hkeys' (hs.agree_left hon h)
      rw [← hs.others] at hagree hreturned
      simp only [List.filter_cons, hon, decide_false, Bool.false_eq_true, if_false, returned,
        reached, List.foldl_cons]
      exact ⟨hagree, hreturned⟩

/-- Families that calls left are equal when the stores in them are the same. -/
theorem Leaves.family_eq {key k : Value} {w w' : Option Entry} {after after' : Family}
    (hs : Leaves family self key s w after) (ht : Leaves family self k t w' after')
    (hsame : (after.get self).Same (after'.get self)) : after = after' := by
  have hhandle : after.handle = after'.handle := by
    rw [hs.others, ht.others]
    exact family.handle_put_congr self hsame
  have hstore : after.get self = after'.get self := by
    rw [← hs.current, ← ht.current, hhandle]
    refine hsame _ ?_
    rw [ht.others]
    exact Family.name_handle _
  rw [hs.others, ht.others, hstore]

/-- Two calls on different keys that are there leave the same family in both orders. -/
theorem reached_swap {first second : Operation}
    (hfirst : (first.target filtersKey).Steady family self)
    (hsecond : (second.target filtersKey).Steady family self)
    (hne : (first.target filtersKey).key ≠ (second.target filtersKey).key)
    (hs : s.rowFilterKey = filtersKey) (hpresent : s.get? (first.target filtersKey) ≠ none)
    (hpresent' : s.get? (second.target filtersKey) ≠ none) :
    reached self (family.put self s) [first, second] =
      reached self (family.put self s) [second, first] := by
  -- Each call finds under its key what it finds without the other call before it.
  obtain ⟨_, halone⟩ := leaves_liveStep_one hs hsecond
  have hagree := halone.agree_left hne.symm ⟨hs, hs, .refl _⟩
  obtain ⟨w₁', w₁, hw₁, -, hlast₁, hleaves₁⟩ := leaves_liveStep hagree hfirst
  have hagree' := hleaves₁.agree_left hne ⟨hs, hs, .refl _⟩
  obtain ⟨w₂', w₂, hw₂, -, hlast₂, hleaves₂⟩ := leaves_liveStep hagree' hsecond
  rw [← hleaves₁.others] at hlast₂
  rw [← hleaves₂.others] at hlast₁
  apply hlast₂.family_eq hlast₁
  have hkey : ∀ k : Value, k.Same k := fun k f _ => rfl
  have hleft := hlast₂.written.trans (hleaves₁.written.write? (hkey _) hw₂)
  have hright := hlast₁.written.trans (hleaves₂.written.write? (hkey _) hw₁)
  rw [write?_comm hne hpresent hpresent'] at hleft
  exact hleft.trans hright.symm

theorem reached_append (self : Text) (family : Family) (ops later : List Operation) :
    reached self family (ops ++ later) = reached self (reached self family ops) later :=
  List.foldl_append

/-- In a run of a store nothing else changes. -/
theorem reached_put (family : Family) (self : Text) {ops : List Operation}
    (hkeys : ∀ op ∈ ops, (op.target filtersKey).Steady family self)
    (hs : s.rowFilterKey = filtersKey) :
    reached self (family.put self s) ops =
        family.put self ((reached self (family.put self s) ops).get self) ∧
      ((reached self (family.put self s) ops).get self).rowFilterKey = filtersKey := by
  induction ops generalizing s with
  | nil => simpa [reached, Family.get_put_same] using hs
  | cons op ops ih =>
    obtain ⟨w, hleaves⟩ := leaves_liveStep_one hs (hkeys op List.mem_cons_self)
    have hkey : ((effect (liveStep self op) (family.put self s)).2.get self).rowFilterKey =
        filtersKey := by
      rw [hleaves.written.rowFilterKey, rowFilterKey_write?, hs]
    have hrest := ih (fun op' hop => hkeys op' (List.mem_cons_of_mem _ hop)) hkey
    rw [← hleaves.others] at hrest
    exact hrest

/-- The calls of one store that starts empty, among any other stores. Under every key the run leaves
what the calls on this key alone leave, and these return the same, where the error of a call that shows
the store itself may be another error. Two calls on different keys that are there may change places
without changing the query string. -/
theorem independent_keys (family : Family) (self filtersKey : Text) (ops : List Operation)
    (hkeys : ∀ op ∈ ops, (op.target filtersKey).Steady family self) :
    let start := family.put self (Store.empty filtersKey)
    (∀ k : Value,
      Entry.Same (((reached self start ops).get self).get? k)
          (((reached self start (ops.filter (On filtersKey k))).get self).get? k) ∧
        List.Forall₂ (SameReturn family self)
          ((returned self start ops).filter fun c => c.1.On filtersKey k)
          (returned self start (ops.filter (On filtersKey k)))) ∧
      ∀ before first second later, ops = before ++ first :: second :: later →
        (first.target filtersKey).key ≠ (second.target filtersKey).key →
        ((reached self start before).get self).get? (first.target filtersKey) ≠ none →
        ((reached self start before).get self).get? (second.target filtersKey) ≠ none →
        ((reached self start (before ++ second :: first :: later)).get self).toQueryString =
          ((reached self start ops).get self).toQueryString := by
  intro start
  refine ⟨fun k => ?_, ?_⟩
  · have hempty : Agree filtersKey k (Store.empty filtersKey) (Store.empty filtersKey) :=
      ⟨rfl, rfl, .refl _⟩
    obtain ⟨hagree, hreturned⟩ := agree_reached hkeys hempty
    exact ⟨hagree.entry, hreturned⟩
  · rintro before first second later rfl hne hfirst hsecond
    have hkeys' : ∀ op ∈ before, (op.target filtersKey).Steady family self :=
      fun op hop => hkeys op (List.mem_append_left _ hop)
    have hempty : (Store.empty filtersKey).rowFilterKey = filtersKey := rfl
    obtain ⟨hbefore, hkey⟩ := reached_put family self hkeys' hempty
    have hswap := reached_swap (hkeys first (by simp)) (hkeys second (by simp)) hne hkey hfirst hsecond
    rw [← hbefore] at hswap
    have hsplit : ∀ a b : Operation, before ++ a :: b :: later = before ++ ([a, b] ++ later) :=
      fun _ _ => rfl
    rw [hsplit, hsplit, reached_append, reached_append, reached_append, reached_append, hswap]

/-- Calls on two keys in turn, of which the last one fails. -/
def turns : List Operation :=
  [.set (.text "limit") (.int 1), .append (.text "select") (.text "name"),
    .set (.text "limit") (.int 2), .append (.text "select") (.text "region"),
    .append (.text "limit") (.int 3)]

theorem independent_keys_turns :
    let start := (⟨[]⟩ : Family).put "a" (Store.empty Family.defaultKey)
    Entry.Same (((reached "a" start turns).get "a").get? (.text "select"))
        (((reached "a" start (turns.filter (On Family.defaultKey (.text "select")))).get "a").get?
          (.text "select")) ∧
      ((reached "a" start (turns.take 2 ++ [.append (.text "select") (.text "region"),
          .set (.text "limit") (.int 2), .append (.text "limit") (.int 3)])).get "a").toQueryString =
        ((reached "a" start turns).get "a").toQueryString := by
  have hkeys : ∀ op ∈ turns, (op.target Family.defaultKey).Steady ⟨[]⟩ "a" := by
    intro op hop
    simp only [turns, List.mem_cons, List.not_mem_nil, or_false] at hop
    rcases hop with rfl | rfl | rfl | rfl | rfl <;> exact Value.steady_text _ _ _
  obtain ⟨hrun, hswap⟩ := independent_keys ⟨[]⟩ "a" Family.defaultKey turns hkeys
  exact ⟨(hrun (.text "select")).1,
    hswap (turns.take 2) (.set (.text "limit") (.int 2)) (.append (.text "select") (.text "region"))
      [.append (.text "limit") (.int 3)] rfl nofun nofun nofun⟩

def errorKinds (calls : List (Operation × Except Failure (Option RowFilter))) :
    List (Option ErrorKind) :=
  calls.map fun c => match c.2 with
    | .ok _ => none
    | .error e => some e.kind

/-- A value is put under one key, then the store's own query is shown in an error of another key. -/
def selfShown : List Operation :=
  [.set (.text "q") (.list [.set [.int 1]]),
    .append (.text "select") (.list [.query (blankQueries "a"), .float .nan])]

/-- The error of the second call is not the one that it gives alone. -/
theorem errors_selfShown :
    let start := (⟨[]⟩ : Family).put "a" (Store.empty Family.defaultKey)
    (returned "a" start selfShown).filter (fun c => c.1.On Family.defaultKey (.text "select")) ≠
      returned "a" start (selfShown.filter (On Family.defaultKey (.text "select"))) := by
  intro start h
  have hkinds := congrArg errorKinds h
  have hrun : errorKinds ((returned "a" start selfShown).filter
      fun c => c.1.On Family.defaultKey (.text "select")) = [some .type] := rfl
  have halone : errorKinds (returned "a" start
      (selfShown.filter (On Family.defaultKey (.text "select")))) = [some .invalidArgument] := rfl
  rw [hrun, halone] at hkinds
  cases hkinds

end Operation

end Store

end RowQuery
