import TodoLists.Proofs.Item.Setters
import TodoLists.Proofs.ItemList.Distinct

/-!
# What a list has been through

A list is a map from ids to items that remembers in which order they were added. Here what is done
to a list from the start is written down as it happens, with the id that each new item was given,
and the list is what the account tells: an id leads to the item last added under it, with everything
that was set on it since, unless it was removed. The invariant that carries this is that ids are
distinct, which each new id has to preserve because it is none of the ids in the list.
-/

namespace TodoLists

/-! ### Looking up after a change -/

namespace ItemList

variable {l : ItemList}

theorem get?_eq_none_iff {id : ItemId} : l.get? id = none ↔ id ∉ l.ids := by
  rw [get?, Option.map_eq_none_iff, List.find?_eq_none, ids, List.mem_map]
  constructor
  · rintro h ⟨e, he, rfl⟩
    exact h e he (beq_self_eq_true _)
  · intro h e he hid
    exact h ⟨e, he, eq_of_beq hid⟩

theorem get?_append (es : List (ItemId × Item)) (e : ItemId × Item) (id : ItemId) :
    get? ⟨es ++ [e]⟩ id =
      (get? ⟨es⟩ id).or (if id = e.1 then some e.2 else none) := by
  rw [get?, get?, List.find?_append]
  by_cases h : id = e.1
  · subst h
    cases es.find? fun x => x.1 == e.1 <;> simp
  · have hne : (e.1 == id) = false := beq_eq_false_iff_ne.2 (Ne.symm h)
    cases es.find? fun x => x.1 == id <;> simp [h, hne]

theorem get?_remove (l : ItemList) (removed id : ItemId) :
    (l.remove removed).get? id = if id = removed then none else l.get? id := by
  rw [get?, get?, remove, List.find?_filter]
  split
  · next h =>
    subst h
    rw [Option.map_eq_none_iff, List.find?_eq_none]
    intro e _
    simp
  · next h =>
    refine congrArg (Option.map _) (congrArg (List.find? · l.entries) ?_)
    funext e
    by_cases he : e.1 = id
    · simp [he, h]
    · simp [he]

theorem get?_modify (l : ItemList) (changed id : ItemId) (f : Item → Item) :
    (l.modify changed f).get? id =
      if id = changed then (l.get? id).map f else l.get? id := by
  obtain ⟨es⟩ := l
  induction es with
  | nil => simp [modify, modifyFirst, get?]
  | cons e es ih =>
    simp only [modify, get?, modifyFirst] at ih ⊢
    by_cases hchanged : e.1 = changed
    · rw [if_pos hchanged]
      by_cases hid : e.1 = id
      · have heq : id = changed := hid.symm.trans hchanged
        simp [hid, heq]
      · have hne : id ≠ changed := fun h => hid (hchanged.trans h.symm)
        simp [hid, hne]
    · rw [if_neg hchanged]
      by_cases hid : e.1 = id
      · have hne : id ≠ changed := fun h => hchanged (hid.trans h)
        simp [hid, hne]
      · simpa [hid] using ih

theorem remove_of_not_mem {id : ItemId} (h : id ∉ l.ids) : l.remove id = l := by
  obtain ⟨es⟩ := l
  rw [remove, mk.injEq, List.filter_eq_self]
  intro e he
  rw [bne_iff_ne]
  rintro rfl
  exact h (List.mem_map_of_mem he)

theorem modify_of_not_mem {id : ItemId} (h : id ∉ l.ids) (f : Item → Item) :
    l.modify id f = l := by
  obtain ⟨es⟩ := l
  rw [modify, mk.injEq]
  induction es with
  | nil => rfl
  | cons e es ih =>
    rw [ids, List.map_cons, List.mem_cons, not_or] at h
    rw [modifyFirst, if_neg (Ne.symm h.1), ih h.2]

/-- Going through the ids of a list and removing each leaves nothing. -/
theorem removeAll_ids (l : ItemList) : l.removeAll l.ids = .empty := by
  have hentries : (l.removeAll l.ids).entries = [] := by
    rw [entries_removeAll, List.filter_eq_nil_iff]
    intro e he
    have hid : e.1 ∈ l.ids := List.mem_map_of_mem he
    simpa using hid
  rw [empty, mk.injEq]
  exact hentries

/-- A new item is put at the end, under the first number of the supply that is no id of the list. -/
theorem add_eq (l : ItemList) (d : Draft) (s : Supply) :
    ∃ k, (⟨s.draw k⟩ : ItemId) ∉ l.ids ∧ (∀ j < k, (⟨s.draw j⟩ : ItemId) ∈ l.ids) ∧
      l.add d s = (⟨s.draw k⟩, ⟨l.entries ++ [(⟨s.draw k⟩, d.toItem)]⟩, s.drop (k + 1)) := by
  have hmem : ∀ n : Int, n ∈ l.ids.map ItemId.value ↔ (⟨n⟩ : ItemId) ∈ l.ids := by
    intro n
    constructor
    · intro h
      obtain ⟨id, hid, rfl⟩ := List.mem_map.1 h
      exact hid
    · exact fun h => List.mem_map.2 ⟨_, h, rfl⟩
  obtain ⟨hfree, hskipped⟩ := (s.skipped (l.ids.map ItemId.value)).2
  refine ⟨s.skipped (l.ids.map ItemId.value), ?_, fun j hj => ?_, rfl⟩
  · rw [← hmem]
    simpa using hfree
  · rw [← hmem]
    simpa using hskipped j hj

end ItemList

/-! ### Accounts -/

/-- What can be asked of a list. -/
inductive Request where
  | add (d : Draft)
  | remove (id : ItemId)
  | set (id : ItemId) (setter : Setter)
  deriving DecidableEq, Repr

/-- What was done to a list. -/
inductive Event where
  | added (id : ItemId) (d : Draft)
  | removed (id : ItemId)
  | set (id : ItemId) (setter : Setter)
  deriving DecidableEq, Repr

namespace Event

/-- The id that something was done with. -/
def id : Event → ItemId
  | added id _ => id
  | removed id => id
  | set id _ => id

/-- What was asked for. -/
def request : Event → Request
  | added _ d => .add d
  | removed id => .remove id
  | set id setter => .set id setter

/-- What the event sets on the item of an id. -/
def setter? (id : ItemId) : Event → Option Setter
  | set j setter => if id = j then some setter else none
  | _ => none

/-- The list after the event. -/
def after (l : ItemList) : Event → ItemList
  | added id d => ⟨l.entries ++ [(id, d.toItem)]⟩
  | removed id => l.remove id
  | set id setter => l.modify id fun i => setter.apply i

/-- An id is given out only when it is none of the list's. -/
def Fits (l : ItemList) (e : Event) : Prop := ∀ id d, e = added id d → id ∉ l.ids

/-- What the id of the event leads to after it, from what it led to before. -/
def outcome : Event → Option Item → Option Item
  | added _ d, _ => some d.toItem
  | removed _, _ => none
  | set _ setter, before => before.map fun i => setter.apply i

theorem get?_after {l : ItemList} {e : Event} (h : e.Fits l) (id : ItemId) :
    (e.after l).get? id = if id = e.id then e.outcome (l.get? id) else l.get? id := by
  cases e with
  | added new d =>
    rw [after, ItemList.get?_append]
    by_cases hid : id = new
    · subst hid
      have hnone : l.get? id = none := ItemList.get?_eq_none_iff.2 (h _ _ rfl)
      simp [hnone, Event.id, outcome]
    · simp [hid, Event.id]
  | removed gone => exact ItemList.get?_remove l gone id
  | set changed setter => exact ItemList.get?_modify l changed id _

theorem ids_after (l : ItemList) (e : Event) : (e.after l).ids =
    match e with
    | added id _ => l.ids ++ [id]
    | removed id => l.ids.filter (· != id)
    | set _ _ => l.ids := by
  cases e with
  | added id d => exact List.map_append
  | removed id => exact ItemList.ids_remove l id
  | set id setter => exact ItemList.ids_modify l id _

theorem nodup_ids_after {l : ItemList} (hids : l.ids.Nodup) {e : Event} (h : e.Fits l) :
    (e.after l).ids.Nodup := by
  rw [ids_after]
  cases e with
  | added id d =>
    refine List.nodup_append.2 ⟨hids, List.nodup_singleton id, fun x hx y hy hxy => ?_⟩
    obtain rfl := List.mem_singleton.1 hy
    exact h _ _ rfl (hxy ▸ hx)
  | removed id => exact hids.filter _
  | set id setter => exact hids

end Event

/-! ### What accounts tell -/

/-- What is set on the item of an id, in order. -/
def setters (id : ItemId) (events : List Event) : List Setter := events.filterMap (·.setter? id)

/-- By the account the item was added under the id, is as it was set since, and was not removed. -/
def Tells (events : List Event) (id : ItemId) (i : Item) : Prop :=
  ∃ before d after, events = before ++ .added id d :: after ∧ .removed id ∉ after ∧
    IsAsSet d (setters id after) i

theorem tells_iff {events : List Event} {id : ItemId} {i : Item} : Tells events id i ↔
    ∃ before d after, events = before ++ .added id d :: after ∧ .removed id ∉ after ∧
      i = (setters id after).foldl Setter.apply d.toItem := by
  simp only [Tells, isAsSet_iff]

theorem not_tells_nil (id : ItemId) (i : Item) : ¬ Tells [] id i := by
  rintro ⟨before, d, after, heq, -⟩
  exact absurd heq.symm (List.append_ne_nil_of_right_ne_nil before (List.cons_ne_nil _ _))

/-- What an account tells of an id is settled by its last event and by what it told before. -/
theorem tells_append_singleton {events : List Event} {e : Event} {id : ItemId} {i : Item} :
    Tells (events ++ [e]) id i ↔ (∃ d, e = .added id d ∧ i = d.toItem) ∨
      e ≠ .removed id ∧ ∃ j, Tells events id j ∧ i = (setters id [e]).foldl Setter.apply j := by
  simp only [tells_iff]
  constructor
  · rintro ⟨before, d, after, heq, hnot, rfl⟩
    rcases after.eq_nil_or_concat with rfl | ⟨after, last, rfl⟩
    · obtain ⟨-, hlast⟩ := List.append_inj' heq rfl
      cases hlast
      exact Or.inl ⟨d, rfl, rfl⟩
    · rw [List.concat_eq_append, ← List.cons_append, ← List.append_assoc] at heq
      obtain ⟨rfl, hlast⟩ := List.append_inj' heq rfl
      cases hlast
      rw [List.concat_eq_append, List.mem_append, List.mem_singleton, not_or] at hnot
      refine Or.inr ⟨fun h => hnot.2 h.symm, _, ⟨before, d, after, rfl, hnot.1, rfl⟩, ?_⟩
      rw [List.concat_eq_append, setters, List.filterMap_append, List.foldl_append]
      rfl
  · rintro (⟨d, rfl, rfl⟩ | ⟨hne, _, ⟨before, d, after, rfl, hnot, rfl⟩, rfl⟩)
    · exact ⟨events, d, [], rfl, List.not_mem_nil, rfl⟩
    · refine ⟨before, d, after ++ [e], by simp, ?_, ?_⟩
      · rw [List.mem_append, List.mem_singleton, not_or]
        exact ⟨hnot, fun h => hne h.symm⟩
      · rw [setters, setters, setters, List.filterMap_append, List.foldl_append]

theorem tells_append_of_ne {events : List Event} {e : Event} {id : ItemId} (h : id ≠ e.id)
    (i : Item) : Tells (events ++ [e]) id i ↔ Tells events id i := by
  have hnone : e.setter? id = none := by
    cases e with
    | added | removed => rfl
    | set changed setter => exact if_neg h
  have hsetters : setters id [e] = [] := by
    rw [setters, List.filterMap_cons_none hnone, List.filterMap_nil]
  have hadded : ∀ d, e ≠ .added id d := by
    rintro d rfl
    exact h rfl
  have hremoved : e ≠ .removed id := by
    rintro rfl
    exact h rfl
  rw [tells_append_singleton, hsetters]
  simp [hadded, hremoved]

/-- A list that leads where the account tells still does after one more event. -/
theorem tells_after {events : List Event} {l : ItemList} {e : Event} (hfits : e.Fits l)
    (h : ∀ id i, l.get? id = some i ↔ Tells events id i) (id : ItemId) (i : Item) :
    (e.after l).get? id = some i ↔ Tells (events ++ [e]) id i := by
  rw [Event.get?_after hfits]
  split
  · next hid =>
    subst hid
    rw [tells_append_singleton]
    simp only [← h]
    cases e with
    | added new d =>
      have hnone : l.get? new = none := ItemList.get?_eq_none_iff.2 (hfits _ _ rfl)
      simp [Event.outcome, Event.id, hnone, eq_comm]
    | removed gone => simp [Event.outcome, Event.id]
    | set changed setter =>
      rw [Event.outcome, Option.map_eq_some_iff]
      simp [Event.id, setters, Event.setter?, eq_comm]
  · next hid => rw [tells_append_of_ne hid, h]

/-! ### Runs -/

/-- A list and its supply of ids, with an account of what was done from the start. -/
structure Chronicle where
  items : ItemList
  supply : Supply
  events : List Event

namespace Chronicle

def start (supply : Supply) : Chronicle := ⟨.empty, supply, []⟩

/-- Does what is asked and takes it down, also where the id is none of the list's. -/
def perform (c : Chronicle) : Request → Chronicle
  | .add d =>
    let (id, items, supply) := c.items.add d c.supply
    ⟨items, supply, c.events ++ [.added id d]⟩
  | .remove id => { c with items := c.items.remove id, events := c.events ++ [.removed id] }
  | .set id setter =>
    { c with
      items := c.items.modify id fun i => setter.apply i
      events := c.events ++ [.set id setter] }

def run (c : Chronicle) (requests : List Request) : Chronicle := requests.foldl perform c

/-- A step is one event, which gives out no id that the list has. -/
theorem exists_event (c : Chronicle) (r : Request) : ∃ e : Event, e.request = r ∧
    e.Fits c.items ∧ (c.perform r).items = e.after c.items ∧
    (c.perform r).events = c.events ++ [e] := by
  cases r with
  | add d =>
    obtain ⟨k, hfree, -, hadd⟩ := c.items.add_eq d c.supply
    refine ⟨.added ⟨c.supply.draw k⟩ d, rfl, ?_, ?_, ?_⟩
    · rintro id d' ⟨⟩
      exact hfree
    · rw [perform, hadd]
      rfl
    · rw [perform, hadd]
  | remove id => exact ⟨.removed id, rfl, nofun, rfl, rfl⟩
  | set id setter => exact ⟨.set id setter, rfl, nofun, rfl, rfl⟩

/-- Ids are distinct, and each leads to the item that the account tells of. -/
structure IsFaithful (c : Chronicle) : Prop where
  distinct : c.items.ids.Nodup
  get?_eq_some_iff : ∀ id i, c.items.get? id = some i ↔ Tells c.events id i

theorem isFaithful_start (supply : Supply) : (start supply).IsFaithful where
  distinct := List.nodup_nil
  get?_eq_some_iff id i := ⟨nofun, fun h => absurd h (not_tells_nil id i)⟩

theorem IsFaithful.perform {c : Chronicle} (h : c.IsFaithful) (r : Request) :
    (c.perform r).IsFaithful := by
  obtain ⟨e, -, hfits, hitems, hevents⟩ := c.exists_event r
  constructor
  · rw [hitems]
    exact Event.nodup_ids_after h.distinct hfits
  · rw [hitems, hevents]
    exact tells_after hfits h.get?_eq_some_iff

theorem IsFaithful.run {c : Chronicle} (h : c.IsFaithful) (requests : List Request) :
    (c.run requests).IsFaithful := by
  induction requests generalizing c with
  | nil => exact h
  | cons r rs ih => exact ih (h.perform r)

/-- The ids that are not removed later keep their order when the event happens. -/
theorem filter_ids_later (l : ItemList) (e : Event) (later : List Event) :
    l.ids.filter (fun id => .removed id ∉ e :: later) <+:
      (e.after l).ids.filter fun id => .removed id ∉ later := by
  rw [Event.ids_after]
  cases e with
  | added id d =>
    rw [List.filter_append]
    simp
  | removed id =>
    have heq : l.ids.filter (fun x => .removed x ∉ .removed id :: later) =
        (l.ids.filter (· != id)).filter fun x => .removed x ∉ later := by
      rw [List.filter_filter]
      apply List.filter_congr
      intro x _
      by_cases hx : x = id <;> simp [hx]
    exact heq ▸ List.prefix_rfl
  | set id setter => simp

/-- Items that are not removed keep their order, and new ones come after them. -/
theorem filter_ids_run (c : Chronicle) (requests : List Request) :
    ∃ later, (c.run requests).events = c.events ++ later ∧
      c.items.ids.filter (fun id => .removed id ∉ later) <+: (c.run requests).items.ids := by
  induction requests generalizing c with
  | nil => exact ⟨[], (List.append_nil _).symm, by simp [run]⟩
  | cons r rs ih =>
    obtain ⟨e, -, -, hitems, hevents⟩ := c.exists_event r
    obtain ⟨later, hlater, hprefix⟩ := ih (c.perform r)
    rw [hitems] at hprefix
    refine ⟨e :: later, ?_, (filter_ids_later c.items e later).trans hprefix⟩
    rw [run, List.foldl_cons, ← run, hlater, hevents, List.append_assoc]
    rfl

/-- The account has what was asked for, in order. -/
theorem map_request_run (c : Chronicle) (requests : List Request) :
    (c.run requests).events.map Event.request = c.events.map Event.request ++ requests := by
  induction requests generalizing c with
  | nil => exact (List.append_nil _).symm
  | cons r rs ih =>
    obtain ⟨e, hrequest, -, -, hevents⟩ := c.exists_event r
    rw [run, List.foldl_cons, ← run, ih, hevents, List.map_append, List.append_assoc,
      List.map_singleton, hrequest]
    rfl

/-- The ids of a list lead to items as its account tells, and stand in the order in which they were
given out. -/
structure IsOrderedMap (c : Chronicle) : Prop extends IsFaithful c where
  /-- Numbers are drawn up to the first that is free, and the item goes to the end. -/
  add : ∀ d, ∃ k, (⟨c.supply.draw k⟩ : ItemId) ∉ c.items.ids ∧
    (∀ j < k, (⟨c.supply.draw j⟩ : ItemId) ∈ c.items.ids) ∧
    c.items.add d c.supply = (⟨c.supply.draw k⟩,
      ⟨c.items.entries ++ [(⟨c.supply.draw k⟩, d.toItem)]⟩, c.supply.drop (k + 1))
  remove : ∀ id, (c.items.remove id).ids = c.items.ids.erase id ∧
    (id ∉ c.items.ids → c.items.remove id = c.items)
  set : ∀ id f, (c.items.modify id f).ids = c.items.ids ∧
    (id ∉ c.items.ids → c.items.modify id f = c.items)
  /-- Nothing that is done with one id changes where another one leads. -/
  others : ∀ r, ∃ e : Event, e.request = r ∧ (c.perform r).events = c.events ++ [e] ∧
    ∀ id, id ≠ e.id → (c.perform r).items.get? id = c.items.get? id
  /-- Whatever is done later, what is not removed keeps its order and comes before what is new. -/
  order : ∀ requests, ∃ later, (c.run requests).events = c.events ++ later ∧
    c.items.ids.filter (fun id => .removed id ∉ later) <+: (c.run requests).items.ids
  clear : c.items.removeAll c.items.ids = .empty

theorem IsFaithful.isOrderedMap {c : Chronicle} (h : c.IsFaithful) : c.IsOrderedMap where
  toIsFaithful := h
  add d := c.items.add_eq d c.supply
  remove id := ⟨by rw [ItemList.ids_remove, h.distinct.erase_eq_filter],
    ItemList.remove_of_not_mem⟩
  set id f := ⟨ItemList.ids_modify c.items id f, fun hid => ItemList.modify_of_not_mem hid f⟩
  others r := by
    obtain ⟨e, hrequest, hfits, hitems, hevents⟩ := c.exists_event r
    refine ⟨e, hrequest, hevents, fun id hid => ?_⟩
    rw [hitems, Event.get?_after hfits, if_neg hid]
  order := c.filter_ids_run
  clear := c.items.removeAll_ids

/-- From the empty list every run leads to a list that is an ordered map, and accounts for all that
was asked; a new item has the fields of its description, and each setter changes one field. -/
theorem run_isOrderedMap (supply : Supply) (requests : List Request) :
    ((start supply).run requests).IsOrderedMap ∧
    ((start supply).run requests).events.map Event.request = requests ∧
    (∀ d : Draft, d.toItem.name = .str d.name ∧ d.toItem.description = .str d.description ∧
      d.toItem.status = d.status ∧ d.toItem.tags.others = [] ∧
      ∀ t, d.toItem.hasTag t = true ↔ t ∈ d.tags) ∧
    ∀ (setter : Setter) (i : Item), setter.Makes i (setter.apply i) := by
  refine ⟨((isFaithful_start supply).run requests).isOrderedMap, map_request_run _ _, fun d => ?_,
    fun setter i => Setter.makes_apply i setter⟩
  refine ⟨rfl, rfl, rfl, rfl, fun t => ?_⟩
  exact Draft.hasTag_toItem

end Chronicle

end TodoLists
