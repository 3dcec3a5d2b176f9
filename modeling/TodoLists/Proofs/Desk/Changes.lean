import TodoLists.Desk
import TodoLists.Proofs.Query.Selection
import Mathlib

/-!
# Changing what a query finds

A change of the items that a query finds is settled before the first item is changed: it is the
items on which some stage is true at that time, whatever the change makes of them. Going through
their ids one at a time changes these items and no others, provided that ids are distinct.
-/

namespace TodoLists

/-! ### The items found -/

namespace ItemList

variable {l : ItemList}

/-- The items that a query finds are changed. -/
def mapFound (l : ItemList) (q : Query) (f : Item → Item) : ItemList :=
  ⟨l.entries.map fun e => if q.holds e.2 then (e.1, f e.2) else e⟩

/-- The items that a query does not find. -/
def dropFound (l : ItemList) (q : Query) : ItemList := ⟨l.entries.filter fun e => !q.holds e.2⟩

/-- The ids of the items that a query finds, in the order in which its stages first find them. -/
def foundIds (l : ItemList) (q : Query) : List ItemId :=
  (firstFound q.stageList l.entries).map (·.1)

theorem foundIds_perm (l : ItemList) (q : Query) :
    (l.foundIds q).Perm ((l.entries.filter fun e => q.holds e.2).map (·.1)) :=
  (firstFound_perm q.stageList l.entries).map _

theorem foundIds_nodup (h : l.ids.Nodup) (q : Query) : (l.foundIds q).Nodup :=
  (foundIds_perm l q).nodup_iff.2 (nodup_map_fst_filter h _)

theorem mem_foundIds (h : l.ids.Nodup) {q : Query} {e : ItemId × Item} (he : e ∈ l.entries) :
    e.1 ∈ l.foundIds q ↔ q.holds e.2 = true :=
  (foundIds_perm l q).mem_iff.trans (mem_map_fst_filter h (fun e => q.holds e.2) he)

theorem mem_foundIds_iff {q : Query} {id : ItemId} :
    id ∈ l.foundIds q ↔ ∃ e ∈ l.entries, e.1 = id ∧ q.holds e.2 = true := by
  rw [(foundIds_perm l q).mem_iff, List.mem_map]
  apply exists_congr
  intro e
  rw [List.mem_filter, and_assoc, and_comm (a := q.holds e.2 = true)]

theorem foundIds_eq_nil_iff {q : Query} :
    l.foundIds q = [] ↔ ∀ e ∈ l.entries, q.holds e.2 = false := by
  have hnil : l.foundIds q = [] ↔ (l.entries.filter fun e => q.holds e.2).map (·.1) = [] :=
    ⟨fun h => (h ▸ foundIds_perm l q).nil_eq.symm, fun h => (h ▸ foundIds_perm l q).eq_nil⟩
  rw [hnil, List.map_eq_nil_iff, List.filter_eq_nil_iff]
  simp

theorem modifyAll_foundIds (h : l.ids.Nodup) (q : Query) (f : Item → Item) :
    l.modifyAll (l.foundIds q) f = l.mapFound q f := by
  have hentries : (l.modifyAll (l.foundIds q) f).entries = (l.mapFound q f).entries := by
    rw [entries_modifyAll h (foundIds_nodup h q)]
    exact List.map_congr_left fun e he => by simp only [mem_foundIds h he]
  rw [mk.injEq]
  exact hentries

theorem removeAll_foundIds (h : l.ids.Nodup) (q : Query) :
    l.removeAll (l.foundIds q) = l.dropFound q := by
  have hentries : (l.removeAll (l.foundIds q)).entries = (l.dropFound q).entries := by
    rw [entries_removeAll]
    exact List.filter_congr fun e he => by simp [mem_foundIds h he]
  rw [mk.injEq]
  exact hentries

theorem ids_dropFound_nodup (h : l.ids.Nodup) (q : Query) : (l.dropFound q).ids.Nodup :=
  nodup_map_fst_filter h _

/-- What is left is not found again. -/
theorem foundIds_dropFound (l : ItemList) (q : Query) : (l.dropFound q).foundIds q = [] := by
  apply foundIds_eq_nil_iff.2
  intro e he
  simpa using (List.mem_filter.1 he).2

end ItemList

/-! ### The three changes -/

namespace Desk

variable {d : Desk} {query : String} {q : Query}

theorem matchingIds_of_error {e : Query.SyntaxError} (h : Query.parseQuery query = .error e) :
    d.matchingIds query = .error (.query e) := by
  rw [matchingIds, h]
  rfl

theorem matchingIds_of_hasPriority (h : Query.parseQuery query = .ok q)
    (hpriority : q.hasPriority = true) :
    d.matchingIds query = .error (.unsupported .filterByPriority) := by
  rw [matchingIds, h]
  simp only [Except.mapError, bind, Except.bind, Query.select_of_hasPriority hpriority]

theorem matchingIds_eq (hids : d.items.ids.Nodup) (h : Query.parseQuery query = .ok q)
    (hpriority : q.hasPriority = false) : d.matchingIds query = .ok (d.items.foundIds q) := by
  rw [matchingIds, h]
  simp only [Except.mapError, bind, Except.bind, Query.select_eq hpriority,
    ItemList.eraseDups_found hids]
  rfl

/-- The list becomes another one, and unless nothing was found its file is written. -/
structure Changes (d : Desk) (found : List ItemId) (after : ItemList)
    (r : Except Fault (List ItemId) × Desk) : Prop where
  items : r.2.items = after
  name : r.2.list.name = d.list.name
  path : r.2.list.path = d.list.path
  supply : r.2.supply = d.supply
  unwritten : found = [] → r.1 = .ok [] ∧ r.2.disk = d.disk
  written : found ≠ [] →
    r.1 = (ListFile.save d.disk d.list.path after).1.map (fun _ => found) ∧
      r.2.disk = (ListFile.save d.disk d.list.path after).2

theorem changes_change {found : List ItemId} {f : ItemList → List ItemId → ItemList}
    (h : d.matchingIds query = .ok found) (hnil : f d.items [] = d.items) :
    d.Changes found (f d.items found) (d.change query f) := by
  cases found with
  | nil =>
    rw [change, h, hnil]
    exact ⟨rfl, rfl, rfl, rfl, fun _ => ⟨rfl, rfl⟩, fun hne => absurd rfl hne⟩
  | cons id ids =>
    rw [change, h]
    exact ⟨rfl, rfl, rfl, rfl, nofun, fun _ => ⟨rfl, rfl⟩⟩

theorem change_of_error {e : Fault} (h : d.matchingIds query = .error e)
    (f : ItemList → List ItemId → ItemList) : d.change query f = (.error e, d) := by
  rw [change, h]

theorem change_of_nil (h : d.matchingIds query = .ok []) (f : ItemList → List ItemId → ItemList) :
    d.change query f = (.ok [], d) := by
  rw [change, h]

theorem changes_map (hids : d.items.ids.Nodup) (h : d.matchingIds query = .ok (d.items.foundIds q))
    (f : Item → Item) :
    d.Changes (d.items.foundIds q) (d.items.mapFound q f)
      (d.change query fun l ids => l.modifyAll ids f) := by
  rw [← ItemList.modifyAll_foundIds hids]
  exact changes_change h rfl

theorem changes_remove (hids : d.items.ids.Nodup)
    (h : d.matchingIds query = .ok (d.items.foundIds q)) :
    d.Changes (d.items.foundIds q) (d.items.dropFound q) (d.remove query) := by
  rw [← ItemList.removeAll_foundIds hids]
  exact changes_change h rfl

/-- After the found items are removed the query finds nothing. -/
theorem remove_remove (hids : d.items.ids.Nodup) (h : Query.parseQuery query = .ok q)
    (hpriority : q.hasPriority = false) :
    (d.remove query).2.remove query = (.ok [], (d.remove query).2) := by
  have hitems : (d.remove query).2.items = d.items.dropFound q :=
    (changes_remove hids (matchingIds_eq hids h hpriority)).items
  have hnodup : (d.remove query).2.items.ids.Nodup := by
    rw [hitems]
    exact ItemList.ids_dropFound_nodup hids q
  refine change_of_nil ?_ _
  rw [matchingIds_eq hnodup h hpriority, hitems, ItemList.foundIds_dropFound]

/-- A change is made of the items that the query finds, and of nothing else. -/
theorem changes_found (d : Desk) (hids : d.items.ids.Nodup) (query : String) (s : Status)
    (tag : String) (present : Bool) :
    (∀ e, Query.parseQuery query = .error e →
      d.setStatus query s = (.error (.query e), d) ∧
      d.setTag query tag present = (.error (.query e), d) ∧
      d.remove query = (.error (.query e), d)) ∧
    (∀ q, Query.parseQuery query = .ok q → q.hasPriority = true →
      d.setStatus query s = (.error (.unsupported .filterByPriority), d) ∧
      d.setTag query tag present = (.error (.unsupported .filterByPriority), d) ∧
      d.remove query = (.error (.unsupported .filterByPriority), d)) ∧
    (∀ q, Query.parseQuery query = .ok q → q.hasPriority = false →
      (∀ i, q.holds i = true ↔ ∃ f ∈ q.stageList, f.matches? i = .ok true) ∧
      (d.items.foundIds q).Nodup ∧
      (∀ id, id ∈ d.items.foundIds q ↔ ∃ e ∈ d.items.entries, e.1 = id ∧ q.holds e.2 = true) ∧
      d.Changes (d.items.foundIds q)
        (d.items.mapFound q fun i => { i with status := s }) (d.setStatus query s) ∧
      d.Changes (d.items.foundIds q)
        (d.items.mapFound q fun i => { i with tags := i.tags.set tag present })
        (d.setTag query tag present) ∧
      d.Changes (d.items.foundIds q) (d.items.dropFound q) (d.remove query) ∧
      (d.remove query).2.remove query = (.ok [], (d.remove query).2)) ∧
    ∀ tags : Tags, (tags.set tag present).others = tags.others ∧
      ∀ t, (tags.set tag present).has t = if t = tag then present else tags.has t := by
  refine ⟨fun e h => ?_, fun q h hpriority => ?_, fun q h hpriority => ?_, fun tags => ?_⟩
  · have hfault := matchingIds_of_error (d := d) h
    exact ⟨change_of_error hfault _, change_of_error hfault _, change_of_error hfault _⟩
  · have hfault := matchingIds_of_hasPriority (d := d) h hpriority
    exact ⟨change_of_error hfault _, change_of_error hfault _, change_of_error hfault _⟩
  · have hfound := matchingIds_eq hids h hpriority
    exact ⟨Query.holds_eq_true_iff hpriority, ItemList.foundIds_nodup hids q,
      fun _ => ItemList.mem_foundIds_iff, changes_map hids hfound _,
      changes_map hids hfound _, changes_remove hids hfound, remove_remove hids h hpriority⟩
  · exact ⟨rfl, fun t => tags.has_set tag t present⟩

/-- A desk with three items, two of which the query below finds. -/
def chores : Desk where
  list := ⟨"chores", ⟨.here, ["chores.json"]⟩, ⟨[(⟨1⟩, .ofTexts "pan" "" .waiting ["in"]),
    (⟨2⟩, .ofTexts "tax" "" .waiting []), (⟨3⟩, .ofTexts "tea" "" .completed ["in"])]⟩⟩
  disk := ⟨[], []⟩
  supply := .ofList []

/-- The third item is found first, and again by the second stage. -/
theorem changes_found_chores : chores.items.ids.Nodup ∧
    chores.Changes [⟨3⟩, ⟨1⟩] ⟨[(⟨2⟩, .ofTexts "tax" "" .waiting [])]⟩
      (chores.remove "tea => #in") := by
  have hids : chores.items.ids.Nodup := by decide
  have hparse : Query.parseQuery "tea => #in" = .ok ⟨.name "tea", [.tag "in"]⟩ := by cbv
  have h := (changes_found chores hids "tea => #in" .waiting "in" true).2.2.1 _ hparse rfl
  exact ⟨hids, h.2.2.2.2.2.1⟩

end Desk

end TodoLists
