import TodoLists.Proofs.Completion
import TodoLists.Proofs.Desk.Changes
import TodoLists.Proofs.Desk.Failure
import TodoLists.Proofs.Filter.RoundTrip
import TodoLists.Proofs.ItemList.History
import TodoLists.Proofs.ItemList.LeadsBack

/-!
# Tags that are given and tags that are asked for

A tag comes on an item from a line of quick entry, where it goes on until a blank, a colon or
another `#`, or from a command, which takes any text for a tag. A query can only ask for a word:
there a tag ends at any sign, at `...` and at `=>` as well. So what is given can be asked for
exactly when it is a word of the query notation. Then asking for it finds the items that have it,
and it is offered when its beginning is typed.
-/

namespace TodoLists

variable {d : Desk} {l : ItemList} {t : String}

/-! ### Asking for a tag -/

namespace Query

theorem ofList_print_tag : String.ofList (Filter.tag t).print = "#" ++ t := by
  have hchars : (Filter.tag t).print = ("#" ++ t).toList := by
    rw [String.toList_append]
    rfl
  rw [hchars, String.ofList_toList]

/-- The texts that a query can have for a tag are the words. -/
theorem parseFilter_hash_iff : parseFilter ("#" ++ t) = .ok (.tag t) ↔ IsWord t.toList := by
  constructor
  · intro h
    rw [parseFilter, onText_eq_ok_iff, parseFilterChars_eq_ok_iff] at h
    rcases Filter.canonical_of_derivesStage h fun _ => isCut_of_mem_lexemes with
      hall | hnone | hregular
    · cases hall
    · cases hnone
    · cases hregular with
      | tag hword => exact hword
  · intro h
    rw [← ofList_print_tag]
    exact Filter.parseFilter_print (Or.inr (Or.inr (.tag h))) rfl

theorem parseQuery_hash (h : IsWord t.toList) : parseQuery ("#" ++ t) = .ok (.of (.tag t)) := by
  have hprint : String.ofList (Query.of (.tag t)).print = "#" ++ t := ofList_print_tag
  rw [← hprint]
  refine Filter.parseQuery_print fun f hf => ?_
  obtain rfl := List.mem_singleton.1 hf
  exact ⟨Or.inr (Or.inr (.tag h)), rfl⟩

end Query

/-- A query for a word with `#` finds the items that have it for a tag, in the order of the list. -/
theorem Desk.select_hash (d : Desk) (h : Query.IsWord t.toList) :
    d.select ("#" ++ t) .none =
      .ok (d.items.lookUp ((d.items.entries.filter fun e => e.2.hasTag t).map (·.1))) := by
  have hselect := ItemList.selectSorted_of_supported (q := .of (.tag t)) (o := .none)
    List.not_mem_nil rfl d.items
  have hfound : d.items.found (Query.of (.tag t)).stageList =
      d.items.entries.filter fun e => e.2.hasTag t := List.append_nil _
  rw [select, Query.parseQuery_hash h]
  simp only [Except.mapError, bind, Except.bind]
  rw [hselect, SortOrder.none, if_pos rfl, hfound]

/-! ### Where tags come from -/

/-- The tags that an operation can put on items. -/
def Operation.tags : Operation → List String
  | .add line => Draft.tagsIn line.toList
  | .setTag _ tag true => [tag]
  | _ => []

namespace ItemList

/-- What changes can make of a list. Ids that were distinct and texts that were texts are so still,
and each tag that is a text of characters is one of some texts. -/
structure ComesFrom (start : ItemList) (given : String → Prop) (l : ItemList) : Prop where
  distinct : start.ids.Nodup → l.ids.Nodup
  loose : start.HasLooseTexts → l.HasLooseTexts
  among : ∀ e ∈ l.entries, ∀ t, e.2.hasTag t = true → given t

variable {start : ItemList} {given : String → Prop}

namespace ComesFrom

theorem add (h : ComesFrom start given l) {draft : Draft} (hdraft : ∀ t ∈ draft.tags, given t)
    (supply : Supply) : ComesFrom start given (l.add draft supply).2.1 := by
  obtain ⟨k, hfree, -, hadd⟩ := l.add_eq draft supply
  have hloose : start.HasLooseTexts → (l.add draft supply).2.1.HasLooseTexts :=
    fun hstart => (h.loose hstart).add draft supply
  rw [hadd] at hloose ⊢
  refine ⟨fun hstart => ?_, hloose, ?_⟩
  · have hfits : (Event.added ⟨supply.draw k⟩ draft).Fits l := by
      rintro _ _ ⟨⟩
      exact hfree
    exact Event.nodup_ids_after (h.distinct hstart) hfits
  · refine List.forall_mem_append.2 ⟨h.among, List.forall_mem_singleton.2 fun t ht => ?_⟩
    exact hdraft t (Draft.hasTag_toItem.1 ht)

theorem removeAll (h : ComesFrom start given l) (ids : List ItemId) :
    ComesFrom start given (l.removeAll ids) where
  distinct hstart := ids_removeAll_nodup (h.distinct hstart) ids
  loose hstart := (h.loose hstart).removeAll ids
  among := forall_mem_removeAll h.among ids

theorem modifyAll (h : ComesFrom start given l) {f : Item → Item}
    (hloose : ∀ i : Item, i.HasLooseTexts → (f i).HasLooseTexts)
    (hf : ∀ i t, (f i).hasTag t = true → i.hasTag t = true ∨ given t) (ids : List ItemId) :
    ComesFrom start given (l.modifyAll ids f) where
  distinct hstart := by
    rw [ids_modifyAll]
    exact h.distinct hstart
  loose hstart := (h.loose hstart).modifyAll ids hloose
  among := by
    refine forall_mem_modifyAll h.among (fun e he t ht => ?_) ids
    exact (hf e.2 t ht).elim (he t) id

end ComesFrom

end ItemList

theorem Item.hasTag_setTag (i : Item) (tag t : String) (present : Bool) :
    (i.setTag tag present).hasTag t = if t = tag then present else i.hasTag t :=
  i.tags.has_set tag t present

namespace Desk

section

variable {start : ItemList} {given : String → Prop} (h : start.ComesFrom given d.items)

include h

theorem comesFrom_change (query : String) {f : ItemList → List ItemId → ItemList}
    (hf : ∀ ids, start.ComesFrom given (f d.items ids)) :
    start.ComesFrom given (d.change query f).2.items :=
  (settled_change d query hf).items h

/-- A change puts no other tags on items than those that it gives. -/
theorem comesFrom_perform {op : Operation} (hop : op.isUpdate = true)
    (hgiven : ∀ t ∈ op.tags, given t) : start.ComesFrom given (d.perform op).2.items := by
  cases op with
  | reopen | select | matchingIds => cases hop
  | add line =>
    rw [perform, Desk.add]
    split
    · exact h
    · exact h.add hgiven d.supply
  | remove query => exact comesFrom_change h query h.removeAll
  | setStatus query s =>
    exact comesFrom_change h query
      (h.modifyAll (fun _ hi => hi.setStatus s) fun _ _ ht => Or.inl ht)
  | setTag query tag present =>
    refine comesFrom_change h query (h.modifyAll (fun _ hi => hi.setTag tag present) ?_)
    intro i t ht
    rw [Item.hasTag_setTag] at ht
    split at ht
    · next heq =>
      subst heq ht
      exact Or.inr (hgiven t List.mem_cons_self)
    · exact Or.inl ht

end

/-- The desk after some operations, whether they succeed or not. -/
def performAll (d : Desk) (ops : List Operation) : Desk :=
  ops.foldl (fun d op => (d.perform op).2) d

theorem comesFrom_performAll {start : ItemList} {given : String → Prop} {ops : List Operation}
    (h : start.ComesFrom given d.items)
    (hops : ∀ op ∈ ops, op.isUpdate = true ∧ ∀ t ∈ op.tags, given t) :
    start.ComesFrom given (d.performAll ops).items := by
  induction ops generalizing d with
  | nil => exact h
  | cons op ops ih =>
    obtain ⟨hop, hops⟩ := List.forall_mem_cons.1 hops
    exact ih (comesFrom_perform h hop.1 hop.2) hops

/-- Whatever changes are made, each tag on an item was given by one of them or was there before. It
can be asked for exactly when it is a word; then asking for it finds the item, and all others that
have it. Behind the first word that query is what is offered for every beginning of it, and nothing
but a value that is no text could keep it from being offered. -/
theorem tags_asked_for {start : Desk} {ops : List Operation}
    (hops : ∀ op ∈ ops, op.isUpdate = true) {e : ItemId × Item}
    (he : e ∈ (start.performAll ops).items.entries) (ht : e.2.hasTag t = true) :
    ((∃ op ∈ ops, t ∈ op.tags) ∨ ∃ e' ∈ start.items.entries, e'.2.hasTag t = true) ∧
    (Query.parseFilter ("#" ++ t) = .ok (.tag t) ↔ Query.IsWord t.toList) ∧
    (Query.IsWord t.toList → ∃ found, (start.performAll ops).select ("#" ++ t) .none = .ok found ∧
      e.1 ∈ found.map (·.1) ∧ (start.items.ids.Nodup →
        found = (start.performAll ops).items.entries.filter fun e => e.2.hasTag t)) ∧
    ∀ (commands : List String) (s p : List Char), 2 ≤ (Text.words s).length →
      Completion.partialWord s = '#' :: p → p <+: t.toList →
      (∀ cs, Completion.choices commands (start.performAll ops).items s = .ok cs →
        ⟨"#" ++ t, p.length + 1⟩ ∈ cs) ∧
      (start.items.HasLooseTexts →
        ∃ cs, Completion.choices commands (start.performAll ops).items s = .ok cs) := by
  have hafter : start.items.ComesFrom (fun t =>
      (∃ op ∈ ops, t ∈ op.tags) ∨ ∃ e' ∈ start.items.entries, e'.2.hasTag t = true)
      (start.performAll ops).items := by
    apply comesFrom_performAll
    · exact ⟨id, id, fun e' he' _ ht' => Or.inr ⟨e', he', ht'⟩⟩
    · exact fun op hop => ⟨hops op hop, fun _ ht' => Or.inl ⟨op, hop, ht'⟩⟩
  have hmem : e ∈ (start.performAll ops).items.entries.filter fun e => e.2.hasTag t :=
    List.mem_filter.2 ⟨he, ht⟩
  refine ⟨hafter.among e he t ht, Query.parseFilter_hash_iff, fun hword => ?_,
    fun commands s p hlater hbegun hp => ⟨fun cs hcs => ?_, fun hloose => ?_⟩⟩
  · refine ⟨_, select_hash _ hword, ItemList.mem_map_fst_lookUp he (List.mem_map_of_mem hmem), ?_⟩
    intro hids
    exact ItemList.lookUp_map_fst (hafter.distinct hids) fun _ hx => (List.mem_filter.1 hx).1
  · exact Completion.mem_choices_of_hasTag hcs he ht hbegun hlater hp
  · exact Completion.exists_choices (fun e' he' => (hafter.loose hloose e' he').tags) commands s

/-- A tag that comes from a command. -/
theorem tags_asked_for_cup :
    let d := chores.performAll [.setTag "tea" "cup" true]
    let e : ItemId × Item := (⟨3⟩, .ofTexts "tea" "" .completed ["cup", "in"])
    e ∈ d.items.entries ∧ e.2.hasTag "cup" = true ∧
    Query.parseFilter "#cup" = .ok (.tag "cup") ∧ d.select "#cup" .none = .ok [e] := by
  intro d e
  have hids : chores.items.ids.Nodup := by decide
  have hparse : Query.parseQuery "tea" = .ok (.of (.name "tea")) := by cbv
  have hitems : d.items = chores.items.mapFound (.of (.name "tea")) (·.setTag "cup" true) :=
    (changes_map hids (matchingIds_eq hids hparse rfl) _).items
  have hfilter : (d.items.entries.filter fun e => e.2.hasTag "cup") = [e] := by
    rw [hitems]
    rfl
  have hentry : e ∈ d.items.entries := by
    have hmem := hfilter ▸ List.mem_singleton_self e
    exact (List.mem_filter.1 hmem).1
  have htag : e.2.hasTag "cup" = true := by decide
  obtain ⟨-, hask, hfind, -⟩ := tags_asked_for (by simp [Operation.isUpdate]) hentry htag
  have hword : Query.IsWord "cup".toList := by decide
  obtain ⟨found, hselect, -, hfound⟩ := hfind hword
  rw [hfound hids, hfilter] at hselect
  exact ⟨hentry, htag, hask.2 hword, hselect⟩

/-- The tags of a line that is accepted are the tags of an item afterwards. -/
theorem exists_mem_add (d : Desk) {line : String} (h : (Draft.ofLine line.toList).name ≠ "") :
    ∃ e ∈ (d.add line).2.items.entries,
      ∀ t, e.2.hasTag t = true ↔ t ∈ Draft.tagsIn line.toList := by
  obtain ⟨k, -, -, hadd⟩ := d.items.add_eq (Draft.ofLine line.toList) d.supply
  refine ⟨(⟨d.supply.draw k⟩, (Draft.ofLine line.toList).toItem), ?_, fun _ => Draft.hasTag_toItem⟩
  have hitems : (d.add line).2.items = (d.items.add (Draft.ofLine line.toList) d.supply).2.1 := by
    rw [Desk.add, if_neg h]
    rfl
  rw [hitems, hadd]
  exact List.mem_append_right _ (List.mem_singleton_self _)

/-- In a line of quick entry a tag goes on after `&`, and in a query it does not. -/
theorem tags_not_asked_for :
    Query.parseFilter "#a&b" = .ok (.and [.tag "a", .name "b"]) ∧
    ¬ ∀ (d : Desk) (line : String), (Draft.ofLine line.toList).name ≠ "" →
      ∀ e ∈ (d.add line).2.items.entries, ∀ t, e.2.hasTag t = true →
        Query.parseFilter ("#" ++ t) = .ok (.tag t) := by
  have hread : Query.parseFilter "#a&b" = .ok (.and [.tag "a", .name "b"]) := by cbv
  refine ⟨hread, fun h => ?_⟩
  have hname : (Draft.ofLine "#a&b x".toList).name ≠ "" := by decide +kernel
  have htag : "a&b" ∈ Draft.tagsIn "#a&b x".toList := by decide +kernel
  obtain ⟨e, he, htags⟩ := chores.exists_mem_add hname
  have hasked := h chores "#a&b x" hname e he "a&b" ((htags _).2 htag)
  have hsame : "#" ++ "a&b" = "#a&b" := rfl
  rw [hsame, hread] at hasked
  cases hasked

end Desk

end TodoLists
