import Mathlib.Logic.Function.Basic
import Expiry.ByteMap
import Expiry.Proofs.Ledger

/-!
# Byte maps are finite maps

A finite map is a partial function that some list of entries accounts for. If the list is in
strictly increasing order of the keys there is only one, and it is what a byte map has to say about
itself. So a byte map can be asked in what order its entries come, and otherwise is as good as the
partial function: each edit does to the one what it does to the other.

A sweep is the only edit that looks at more than one key. It meets the entries in the order of the
list, and what it leaves under a key is what the visit to that key has made of the value. The
entries under a common beginning are found without a sweep: they follow each other in the list, and
the keys of the entries ahead of them are less than the beginning itself.

## Main definitions

* `ByteMap.Lists` — the entries of a finite map, in strictly increasing order of the keys
* `ByteMap.Edit`, `ByteMap.run` — what can be done with a byte map, one thing after the other
* `ByteMap.visitEach` — what a sweep makes of a list of entries
* `ByteMap.Edit.Does`, `ByteMap.Leads` — what edits do to a finite map

## Main results

* `ByteMap.Lists.unique` — a finite map is listed in one way only
* `ByteMap.startingWith_exact` — what is found under a beginning is all there is, in order
* `ByteMap.leads_iff_run` — edits of a byte map are edits of a finite map
-/

namespace Expiry.ByteMap

variable {β σ : Type} {m m' : Bytes → Option β} {entries entries' : List (Bytes × β)}

/-- The entries are those of `m`, in strictly increasing order of the keys. -/
structure Lists (entries : List (Bytes × β)) (m : Bytes → Option β) : Prop where
  increasing : (entries.map Prod.fst).Pairwise (· < ·)
  mem_iff : ∀ {key value}, (key, value) ∈ entries ↔ m key = some value

/-- What is stored under each key. -/
def lookup (t : ByteMap β) : Bytes → Option β := fun key => t[key]?

theorem lists_toList (t : ByteMap β) : Lists t.toList t.lookup where
  increasing := by
    rw [Std.TreeMap.map_fst_toList_eq_keys]
    exact Std.TreeMap.ordered_keys.imp Bytes.compare_eq_lt_iff.mp
  mem_iff := Std.TreeMap.mem_toList_iff_getElem?_eq_some

namespace Lists

theorem nodup (h : Lists entries m) : entries.Nodup := by
  refine List.Nodup.of_map Prod.fst (h.increasing.imp fun hlt heq => ?_)
  subst heq
  exact List.lt_irrefl _ hlt

/-- A finite map has only one list in increasing order. -/
theorem unique (h : Lists entries m) (h' : Lists entries' m) : entries = entries' := by
  have hperm : entries.Perm entries' :=
    (List.perm_ext_iff_of_nodup h.nodup h'.nodup).mpr fun _ => h.mem_iff.trans h'.mem_iff.symm
  refine hperm.eq_of_pairwise (fun _ _ _ _ hlt hlt' => ?_) (List.pairwise_map.mp h.increasing)
    (List.pairwise_map.mp h'.increasing)
  exact absurd hlt' (List.lt_asymm hlt)

/-- What is listed is known. -/
theorem ext (h : Lists entries m) (h' : Lists entries m') : m = m' := by
  funext key
  apply Option.ext
  intro value
  rw [← h.mem_iff, h'.mem_iff]

theorem filter (h : Lists entries m) (keep : Bytes → Bool) :
    Lists (entries.filter (keep ·.1)) fun key => if keep key then m key else none where
  increasing := h.increasing.sublist (List.filter_sublist.map _)
  mem_iff {key value} := by
    rw [List.mem_filter, h.mem_iff]
    cases keep key <;> simp

end Lists

/-! ### Common beginnings -/

variable {t : ByteMap β} {head : Bytes}

/-- The entries from the first key on that is not before `head`. No continuation of `head` is
missed. -/
theorem toList_from_eq_filter (t : ByteMap β) (head : Bytes) :
    t[head...*].toList = t.toList.filter fun entry => head.le entry.1 := by
  refine (Std.TreeMap.toList_rci compare).trans ?_
  apply List.filter_congr
  intro entry _
  have hswap : compare head entry.1 = (compare entry.1 head).swap := Std.OrientedCmp.eq_swap
  rw [Bytes.le, hswap, Ordering.isLE_swap]

/-- Among those the continuations of `head` come first. -/
theorem startingWith_eq_filter (t : ByteMap β) (head : Bytes) :
    t.startingWith head = t.toList.filter fun entry => head.isPrefixOf entry.1 := by
  have hsorted : (t[head...*].toList).Pairwise fun a b =>
      head.isPrefixOf b.1 = true → head.isPrefixOf a.1 = true := by
    rw [toList_from_eq_filter]
    refine ((List.pairwise_map.mp t.lists_toList.increasing).filter _).imp_of_mem ?_
    intro a b ha _ hlt hb
    have hhead : head.le a.1 = true := (List.mem_filter.mp ha).2
    have hle : a.1.le b.1 = true := by
      rw [Bytes.le, Bytes.compare_eq_lt_iff.mpr hlt]
      rfl
    rw [List.isPrefixOf_iff_prefix] at hb ⊢
    exact Bytes.prefix_of_le_of_le hhead hle hb
  rw [startingWith, (takeWhile_eq_filter hsorted).1, toList_from_eq_filter, List.filter_filter]
  apply List.filter_congr
  intro entry _
  apply Bool.and_eq_left_iff_imp.mpr
  exact fun h => Bytes.le_of_prefix (List.isPrefixOf_iff_prefix.mp h)

/-- What is found under a beginning are the entries whose key starts with it, all of them and no
others, in strictly increasing order of the keys. -/
theorem startingWith_exact (t : ByteMap β) (head : Bytes) :
    (∀ key value, (key, value) ∈ t.startingWith head ↔ t[key]? = some value ∧ head <+: key) ∧
      ((t.startingWith head).map Prod.fst).Pairwise (· < ·) := by
  have hlists := t.lists_toList.filter head.isPrefixOf
  rw [startingWith_eq_filter]
  refine ⟨fun key value => ?_, hlists.increasing⟩
  rw [hlists.mem_iff, ← List.isPrefixOf_iff_prefix, lookup]
  cases head.isPrefixOf key <;> simp

/-! ### Edits -/

/-- What can be done with a byte map. -/
inductive Edit (σ β : Type) where
  | find (key : Bytes)
  | size
  | isEmpty
  /-- Store a value, settling a conflict with the present one. -/
  | add (key : Bytes) (incoming : β) (settle : β → β → β)
  /-- Change a value in place. -/
  | change (key : Bytes) (f : β → β)
  /-- Erase a key, handing out its value. -/
  | take (key : Bytes)
  /-- Visit every entry, keeping or dropping it. -/
  | sweep (visit : σ → Bytes → β → σ × Option β) (start : σ)
  | clear

/-- What is reported of an edit. -/
inductive Report (σ β : Type) where
  | value (v : Option β)
  | count (n : Nat)
  | flag (b : Bool)
  /-- What the last visit of a sweep has left. -/
  | swept (final : σ)
  | done

/-- Carry out an edit. -/
def perform (t : ByteMap β) : Edit σ β → Report σ β × ByteMap β
  | .find key => (.value t[key]?, t)
  | .size => (.count t.size, t)
  | .isEmpty => (.flag t.isEmpty, t)
  | .add key incoming settle =>
    let (taken, t) := t.add key incoming settle
    (.flag taken, t)
  | .change key f =>
    let t : ByteMap β := t.modify key f
    (.value t[key]?, t)
  | .take key =>
    let (value, t) := t.take key
    (.value value, t)
  | .sweep visit start =>
    let (final, t) := Id.run (t.sweepM (fun state key value => pure (visit state key value)) start)
    (.swept final, t)
  | .clear => (.done, ∅)

/-- One edit after the other. -/
def run (t : ByteMap β) : List (Edit σ β) → List (Report σ β) × ByteMap β
  | [] => ([], t)
  | edit :: edits =>
    let (report, t) := t.perform edit
    let (reports, t) := t.run edits
    (report :: reports, t)

/-- Visit the entries one after the other: what the last visit has left, and the entries that stay,
each with the value that its visit returned. -/
def visitEach (visit : σ → Bytes → β → σ × Option β) : σ → List (Bytes × β) → σ × List (Bytes × β)
  | state, [] => (state, [])
  | state, (key, value) :: rest =>
    let (state, stays) := visit state key value
    let (final, kept) := visitEach visit state rest
    (final, stays.toList.map (key, ·) ++ kept)

/-- An edit of the finite map `m` is reported as `report` and makes it `m'`. -/
def Edit.Does (m : Bytes → Option β) (report : Report σ β) (m' : Bytes → Option β) :
    Edit σ β → Prop
  | .find key => report = .value (m key) ∧ m' = m
  | .size => ∃ entries, Lists entries m ∧ report = .count entries.length ∧ m' = m
  | .isEmpty => ∃ b, (b = true ↔ ∀ key, m key = none) ∧ report = .flag b ∧ m' = m
  | .add key incoming settle =>
    match m key with
    | some existing =>
      report = .flag true ∧ m' = Function.update m key (some (settle existing incoming))
    | none => report = .flag false ∧ m' = Function.update m key (some incoming)
  | .change key f =>
    report = .value ((m key).map f) ∧ m' = Function.update m key ((m key).map f)
  | .take key => report = .value (m key) ∧ m' = Function.update m key none
  | .sweep visit start => ∃ entries, Lists entries m ∧
    report = .swept (visitEach visit start entries).1 ∧ Lists (visitEach visit start entries).2 m'
  | .clear => report = .done ∧ m' = fun _ => none

/-- Edits of the finite map `m`, one after the other, are reported as `reports` and make it `m'`. -/
def Leads (m : Bytes → Option β) (reports : List (Report σ β)) (m' : Bytes → Option β) :
    List (Edit σ β) → Prop
  | [] => reports = [] ∧ m' = m
  | edit :: edits => ∃ report rest m₁,
    reports = report :: rest ∧ edit.Does m report m₁ ∧ Leads m₁ rest m' edits

/-! ### Sweeps -/

theorem sublist_visitEach (visit : σ → Bytes → β → σ × Option β) (state : σ)
    (entries : List (Bytes × β)) :
    ((visitEach visit state entries).2.map Prod.fst).Sublist (entries.map Prod.fst) := by
  induction entries generalizing state with
  | nil => exact List.Sublist.slnil
  | cons entry rest ih =>
    simp only [visitEach, List.map_append]
    cases (visit state entry.1 entry.2).2 with
    | none => exact (ih _).cons _
    | some value => exact (ih _).cons_cons _

/-- What the visits to the entries that are left come to, if there is nothing yet under their keys:
the state goes from visit to visit, and what stays is added to what was kept before. -/
theorem foldl_addStaying (visit : σ → Bytes → β → σ × Option β) (state : σ) (kept : ByteMap β)
    (once : (entries.map Prod.fst).Nodup) (fresh : ∀ entry ∈ entries, kept[entry.1]? = none) :
    let result := entries.foldl (fun acc entry =>
      ((visit acc.1 entry.1 entry.2).1, acc.2.addStaying entry.1 (visit acc.1 entry.1 entry.2).2))
      (state, kept)
    result.1 = (visitEach visit state entries).1 ∧ ∀ key value, result.2[key]? = some value ↔
      (key, value) ∈ (visitEach visit state entries).2 ∨ kept[key]? = some value := by
  induction entries generalizing state kept with
  | nil => simp [visitEach]
  | cons entry rest ih =>
    obtain ⟨hnew, honce⟩ := List.nodup_cons.mp once
    have hentry : kept[entry.1]? = none := fresh entry List.mem_cons_self
    have hadd := fun key => getElem?_addStaying hentry (visit state entry.1 entry.2).2 key
    -- The keys that are left have nothing under them after this visit either.
    have hfresh : ∀ other ∈ rest,
        (kept.addStaying entry.1 (visit state entry.1 entry.2).2)[other.1]? = none := by
      intro other hother
      rw [hadd, if_neg fun heq => hnew (List.mem_map.mpr ⟨other, hother, heq.symm⟩)]
      exact fresh other (List.mem_cons_of_mem _ hother)
    obtain ⟨hstate, hlookup⟩ := ih _ (kept.addStaying entry.1 _) honce hfresh
    refine ⟨hstate, fun key value => ?_⟩
    rw [List.foldl_cons, hlookup, hadd]
    simp only [visitEach, List.mem_append, List.mem_map, Option.mem_toList, Prod.mk.injEq]
    by_cases heq : entry.1 = key
    · subst heq
      simp [hentry, or_comm]
    · simp [heq]

/-- A sweep makes of a byte map what the visits make of its entries. -/
theorem sweepM_visitEach (t : ByteMap β) (visit : σ → Bytes → β → σ × Option β) (start : σ) :
    let result := Id.run (t.sweepM (fun state key value => pure (visit state key value)) start)
    result.1 = (visitEach visit start t.toList).1 ∧
      Lists (visitEach visit start t.toList).2 result.2.lookup := by
  obtain ⟨hstate, hlookup⟩ :=
    foldl_addStaying visit start (∅ : ByteMap β) t.nodup_map_fst_toList (by simp)
  rw [sweepM_eq]
  simp only [List.foldlM_pure, pure_bind, Id.run_pure]
  refine ⟨hstate, t.lists_toList.increasing.sublist (sublist_visitEach visit start _), ?_⟩
  intro key value
  rw [lookup, hlookup]
  simp

/-! ### Byte maps and finite maps -/

theorem lookup_empty : lookup (∅ : ByteMap β) = fun _ => none := by
  funext key
  exact Std.TreeMap.getElem?_emptyc

theorem lookup_insert (t : ByteMap β) (key : Bytes) (value : β) :
    lookup (t.insert key value) = Function.update t.lookup key (some value) := by
  funext key'
  rw [lookup, Std.TreeMap.getElem?_insert, Function.update_apply]
  simp only [Std.LawfulEqOrd.compare_eq_iff_eq, eq_comm (a := key)]
  rfl

theorem lookup_modify (t : ByteMap β) (key : Bytes) (f : β → β) :
    lookup (t.modify key f) = Function.update t.lookup key ((t.lookup key).map f) := by
  funext key'
  rw [lookup, Std.TreeMap.getElem?_modify, Function.update_apply]
  simp only [Std.LawfulEqOrd.compare_eq_iff_eq, eq_comm (a := key)]
  rfl

theorem lookup_erase (t : ByteMap β) (key : Bytes) :
    lookup (t.erase key) = Function.update t.lookup key none := by
  funext key'
  rw [lookup, Std.TreeMap.getElem?_erase, Function.update_apply]
  simp only [Std.LawfulEqOrd.compare_eq_iff_eq, eq_comm (a := key)]
  rfl

theorem isEmpty_iff (t : ByteMap β) : t.isEmpty = true ↔ ∀ key, t.lookup key = none := by
  rw [Std.TreeMap.isEmpty_iff_forall_not_mem]
  apply forall_congr'
  intro key
  rw [Std.TreeMap.mem_iff_isSome_getElem?, Option.not_isSome_iff_eq_none, lookup]

/-- An edit does to a byte map what it does to the finite map. -/
theorem does_perform (t : ByteMap β) (edit : Edit σ β) :
    edit.Does t.lookup (t.perform edit).1 (t.perform edit).2.lookup := by
  cases edit with
  | find key => exact ⟨rfl, rfl⟩
  | size => exact ⟨t.toList, t.lists_toList, by rw [Std.TreeMap.length_toList]; rfl, rfl⟩
  | isEmpty => exact ⟨t.isEmpty, t.isEmpty_iff, rfl, rfl⟩
  | add key incoming settle =>
    simp only [Edit.Does, perform, add, lookup]
    cases t[key]? with
    | none => exact ⟨rfl, t.lookup_insert key incoming⟩
    | some existing => exact ⟨rfl, t.lookup_insert key (settle existing incoming)⟩
  | change key f =>
    have hmodify := t.lookup_modify key f
    have hvalue := congrFun hmodify key
    rw [Function.update_self] at hvalue
    exact ⟨congrArg Report.value hvalue, hmodify⟩
  | take key => exact ⟨rfl, t.lookup_erase key⟩
  | sweep visit start =>
    obtain ⟨hstate, hlists⟩ := t.sweepM_visitEach visit start
    exact ⟨t.toList, t.lists_toList, congrArg Report.swept hstate, hlists⟩
  | clear => exact ⟨rfl, lookup_empty⟩

theorem leads_run (t : ByteMap β) (edits : List (Edit σ β)) :
    Leads t.lookup (t.run edits).1 (t.run edits).2.lookup edits := by
  induction edits generalizing t with
  | nil => exact ⟨rfl, rfl⟩
  | cons edit edits ih => exact ⟨_, _, _, rfl, t.does_perform edit, ih (t.perform edit).2⟩

variable {m'' : Bytes → Option β} {report report' : Report σ β}
variable {reports reports' : List (Report σ β)}

/-- What an edit does is determined. -/
theorem Edit.Does.unique {edit : Edit σ β} (h : edit.Does m report m')
    (h' : edit.Does m report' m'') : report = report' ∧ m' = m'' := by
  cases edit with
  | find | change | take | clear =>
    obtain ⟨rfl, rfl⟩ := h
    obtain ⟨rfl, rfl⟩ := h'
    exact ⟨rfl, rfl⟩
  | size =>
    obtain ⟨entries, hlists, rfl, rfl⟩ := h
    obtain ⟨entries', hlists', rfl, rfl⟩ := h'
    rw [hlists.unique hlists']
    exact ⟨rfl, rfl⟩
  | isEmpty =>
    obtain ⟨b, hb, rfl, rfl⟩ := h
    obtain ⟨b', hb', rfl, rfl⟩ := h'
    rw [Bool.eq_iff_iff.mpr (hb.trans hb'.symm)]
    exact ⟨rfl, rfl⟩
  | add key incoming settle =>
    simp only [Edit.Does] at h h'
    cases hkey : m key with
    | none | some =>
      rw [hkey] at h h'
      exact ⟨h.1.trans h'.1.symm, h.2.trans h'.2.symm⟩
  | sweep visit start =>
    obtain ⟨entries, hlists, rfl, hkept⟩ := h
    obtain ⟨entries', hlists', rfl, hkept'⟩ := h'
    obtain rfl := hlists.unique hlists'
    exact ⟨rfl, hkept.ext hkept'⟩

theorem Leads.unique {edits : List (Edit σ β)} (h : Leads m reports m' edits)
    (h' : Leads m reports' m'' edits) : reports = reports' ∧ m' = m'' := by
  induction edits generalizing m reports reports' with
  | nil =>
    obtain ⟨rfl, rfl⟩ := h
    obtain ⟨rfl, rfl⟩ := h'
    exact ⟨rfl, rfl⟩
  | cons edit edits ih =>
    obtain ⟨report, rest, m₁, rfl, hdoes, hrest⟩ := h
    obtain ⟨report', rest', m₁', rfl, hdoes', hrest'⟩ := h'
    obtain ⟨rfl, rfl⟩ := hdoes.unique hdoes'
    obtain ⟨rfl, rfl⟩ := ih hrest hrest'
    exact ⟨rfl, rfl⟩

/-- Whatever edits are made of an empty byte map, they are reported as edits of a finite map are,
and what can be found afterwards is what the finite map has come to. -/
theorem leads_iff_run (edits : List (Edit σ β)) (reports : List (Report σ β))
    (m : Bytes → Option β) :
    Leads (fun _ => none) reports m edits ↔ reports = ((∅ : ByteMap β).run edits).1 ∧
      ∀ key, ((∅ : ByteMap β).run edits).2[key]? = m key := by
  have hrun := leads_run (∅ : ByteMap β) edits
  rw [lookup_empty] at hrun
  constructor
  · intro h
    obtain ⟨rfl, rfl⟩ := h.unique hrun
    exact ⟨rfl, fun key => rfl⟩
  · rintro ⟨rfl, hlookup⟩
    have hm : lookup ((∅ : ByteMap β).run edits).2 = m := funext hlookup
    rwa [hm] at hrun

end Expiry.ByteMap
