import TodoLists.Proofs.Desk.Outcome
import TodoLists.Proofs.Display
import TodoLists.Shell

/-!
# What comes of a command line

Whatever is typed, the shell answers it. A command is refused before anything is changed, with one
exception: a list that could not be written stays changed in memory. So when writing succeeds, an
answer that complains comes with the shell as it was. That every fault is reported rests on the
texts of the list being texts, which no command changes.
-/

namespace TodoLists

/-! ### Selecting items -/

theorem SortOrder.mem_of_sort_eq_ok {o : SortOrder} {ps found : List (ItemId × Item)}
    (h : o.sort ps = .ok found) {x : ItemId × Item} (hx : x ∈ found) : x ∈ ps := by
  obtain ⟨-, -, h⟩ := exists_of_bind_eq_ok h
  split at h
  · cases h
    exact List.mem_mergeSort.1 hx
  · cases h

namespace ItemList

variable {l : ItemList} {q : Query} {o : SortOrder}

/-- What is selected are items of the list. -/
theorem exists_mem_of_mem_selectSorted {found : List (ItemId × Item)}
    (h : l.selectSorted q o = .ok found) {x : ItemId × Item} (hx : x ∈ found) :
    ∃ e ∈ l.entries, e.2 = x.2 := by
  obtain ⟨-, -, h⟩ := exists_of_bind_eq_ok h
  obtain ⟨ids, -, h⟩ := exists_of_bind_eq_ok h
  have hlookUp : x ∈ l.lookUp ids := by
    simp only at h
    split at h
    · cases h
      exact hx
    · exact SortOrder.mem_of_sort_eq_ok (eq_ok_of_mapError_eq_ok h) hx
  exact exists_mem_of_mem_lookUp hlookUp

/-- Among texts for names only a priority can be in the way. -/
theorem isReportable_of_selectSorted (h : l.HasLooseTexts) {f : Fault}
    (hf : l.selectSorted q o = .error f) : f.IsReportable := by
  have hnames : .name ∈ o.keys → ∀ e ∈ l.entries, e.2.HasTextName :=
    fun _ e he => (h e he).name.imp fun _ ht => ht.1
  obtain ⟨u, hu⟩ := selectSorted_unsupported_iff.2 ((selectSorted_error_iff hnames).1 ⟨f, hf⟩)
  rw [hu] at hf
  cases hf
  exact Desk.isReportable_unsupported u

end ItemList

namespace Desk

variable {d : Desk} {query : String} {o : SortOrder}

theorem isReportable_of_select (h : d.items.HasLooseTexts) {f : Fault}
    (hf : d.select query o = .error f) : f.IsReportable := by
  rcases cases_of_bind_eq_error hf with hparse | ⟨q, -, hselect⟩
  · obtain ⟨e, -, rfl⟩ := exists_of_mapError_eq_error hparse
    exact isReportable_query e
  · exact ItemList.isReportable_of_selectSorted h hselect

theorem hasLooseTexts_of_select (h : d.items.HasLooseTexts) {found : List (ItemId × Item)}
    (hfound : d.select query o = .ok found) : ∀ x ∈ found, x.2.HasLooseTexts := by
  intro x hx
  obtain ⟨q, -, hselect⟩ := exists_of_bind_eq_ok hfound
  obtain ⟨e, he, hex⟩ := ItemList.exists_mem_of_mem_selectSorted hselect hx
  exact hex ▸ h e he

end Desk

/-! ### Complaints -/

/-- What a line starts with that tells of an error, an invalid input or an unknown command. -/
def complaints : List String :=
  ["[red]Error:[/red] ", "[red]Invalid input:[/red] ", "[red]Unknown command:[/red] "]

namespace Output

def IsComplaint (o : Output) : Prop := ∃ start ∈ complaints, ∃ rest, o = .line (start ++ rest)

theorem IsComplaint.take_eq {text : String} (h : (line text).IsComplaint) :
    text.toList.take 5 = "[red]".toList := by
  obtain ⟨start, hstart, rest, hline⟩ := h
  cases hline
  have hred : ∀ start ∈ complaints,
      5 ≤ start.toList.length ∧ start.toList.take 5 = "[red]".toList := by decide
  obtain ⟨hlength, htake⟩ := hred start hstart
  rw [String.toList_append, List.take_append_of_le_length hlength, htake]

/-- What starts in another colour is no complaint. -/
theorem not_isComplaint_append {start : String} (hlength : 5 ≤ start.toList.length)
    (htake : start.toList.take 5 ≠ "[red]".toList) (rest : String) :
    ¬ (line (start ++ rest)).IsComplaint := by
  intro h
  have hred := h.take_eq
  rw [String.toList_append, List.take_append_of_le_length hlength] at hred
  exact htake hred

theorem not_isComplaint_table (table : Table) : ¬ (Output.table table).IsComplaint := by
  rintro ⟨_, -, _, h⟩
  cases h

end Output

/-! ### What a command comes to -/

namespace Shell

/-- None of what is shown is a complaint. -/
def Quiet (out : List Output) : Prop := ∀ o ∈ out, ¬ o.IsComplaint

theorem quiet_line_append {start : String} (hlength : 5 ≤ start.toList.length)
    (htake : start.toList.take 5 ≠ "[red]".toList) (rest : String) :
    Quiet [.line (start ++ rest)] :=
  List.forall_mem_singleton.2 (Output.not_isComplaint_append hlength htake rest)

/-- The outcomes that a command can have: it is refused, it only answers, it sets the sort order, it
leaves the shell, or it is done on the desk. -/
inductive IsOutcome (s : Shell) (kind : ItemList → Prop) : Answer → Prop where
  | refused {f : Fault} (hf : f.IsReportable) : IsOutcome s kind (.error f, s)
  | answered {out : List Output} (hout : Quiet out) : IsOutcome s kind (.ok out, s)
  | sorted {out : List Output} (hout : Quiet out) (o : SortOrder) :
    IsOutcome s kind (.ok out, { s with sort := o })
  | left : IsOutcome s kind (.ok [], { s with running := false })
  | done {α : Type} {r : Except Fault α × Desk} (hr : s.desk.Settled kind r) {say : α → String}
    (hsay : ∀ a, Quiet [.line (say a)]) : IsOutcome s kind (s.onDesk r say)

namespace IsOutcome

variable {s : Shell} {kind : ItemList → Prop} {r : Answer}

theorem items (h : s.IsOutcome kind r) (hs : kind s.desk.items) : kind r.2.desk.items := by
  cases h with
  | refused | answered | sorted | left => exact hs
  | done hr => exact hr.items hs

theorem quiet (h : s.IsOutcome kind r) {out : List Output} (hout : r.1 = .ok out) : Quiet out := by
  cases h with
  | refused => cases hout
  | answered hquiet | sorted hquiet =>
    cases hout
    exact hquiet
  | left =>
    cases hout
    exact fun o ho => absurd ho List.not_mem_nil
  | done _ hsay =>
    obtain ⟨a, -, rfl⟩ := exists_of_map_eq_ok hout
    exact hsay a

theorem isReportable (h : s.IsOutcome ItemList.HasLooseTexts r) {f : Fault}
    (hf : r.1 = .error f) : f.IsReportable := by
  cases h with
  | refused hreportable =>
    cases hf
    exact hreportable
  | answered | sorted | left => cases hf
  | done hr => exact hr.isReportable (eq_error_of_map_eq_error hf)

/-- Only a list that could not be written is changed all the same. -/
theorem unchanged (h : s.IsOutcome ItemList.IsStorable r) {f : Fault} (hf : r.1 = .error f)
    (hwritten : ¬ Desk.WriteFailed s.desk.list.path r.1) : r.2 = s := by
  cases h with
  | refused => rfl
  | answered | sorted | left => cases hf
  | @done α r hr say hsay =>
    have hdesk : r.2 = s.desk :=
      hr.unchanged (eq_error_of_map_eq_error hf) fun hfail => hwritten (hfail.map _)
    rw [onDesk, hdesk]

end IsOutcome

/-! ### The commands -/

section

variable {s : Shell} {kind : ItemList → Prop} (args : List Char)

theorem isOutcome_list (h : s.desk.items.HasLooseTexts) :
    s.IsOutcome kind (s.list args, s) := by
  rw [list]
  cases hselect : s.desk.select (if args = [] then "all" else String.ofList args) s.sort with
  | error f => exact .refused (Desk.isReportable_of_select h hselect)
  | ok found =>
    simp only [bind, Except.bind]
    split
    · apply IsOutcome.answered
      rw [String.append_assoc]
      exact quiet_line_append (by decide) (by decide) _
    · obtain ⟨table, htable, -⟩ :=
        Display.exists_items (Desk.hasLooseTexts_of_select h hselect)
          (if args = [] then "all" else String.ofList args)
      rw [htable]
      exact .answered (List.forall_mem_singleton.2 (Output.not_isComplaint_table table))

theorem isOutcome_setSort : s.IsOutcome kind (s.setSort args) := by
  have hsay : ∀ o, Quiet [.line (describeSort o)] := by
    intro o
    rw [describeSort]
    split
    · exact List.forall_mem_singleton.2 fun h => absurd h.take_eq (by decide)
    · exact quiet_line_append (by decide) (by decide) _
  rw [setSort]
  split
  · exact .answered (hsay _)
  · split
    · exact .refused (Desk.isReportable_invalid _)
    · exact .sorted (hsay _) _

theorem quiet_help : Quiet (helpText.map .line) := by
  intro o ho
  obtain ⟨text, htext, rfl⟩ := List.mem_map.1 ho
  have hplain : ∀ text ∈ helpText, text.toList.take 5 ≠ "[red]".toList := by simp [helpText]
  exact fun h => hplain text htext h.take_eq

theorem isOutcome_add (hadd : ∀ draft, kind (s.desk.items.add draft s.desk.supply).2.1) :
    s.IsOutcome kind (s.add args) :=
  .done (Desk.settled_add _ _ hadd) fun _ => by
    rw [String.append_assoc]
    exact quiet_line_append (by decide) (by decide) _

variable (hkind : ItemList.IsKept kind) (hs : kind s.desk.items)

include hkind hs

theorem isOutcome_setStatus : s.IsOutcome kind (s.setStatus args) := by
  rw [setStatus]
  split
  · exact .refused (Desk.isReportable_invalid _)
  · split
    · exact .refused (Desk.isReportable_invalid _)
    · refine .done (Desk.settled_setStatus hkind hs _ _) fun _ => ?_
      simp only [String.append_assoc]
      exact quiet_line_append (by decide) (by decide) _

theorem isOutcome_setTag (present : Bool) : s.IsOutcome kind (s.setTag args present) := by
  rw [setTag]
  simp only
  split
  · exact .refused (Desk.isReportable_invalid _)
  · refine .done (Desk.settled_setTag hkind hs _ _ _) fun _ => ?_
    simp only [String.append_assoc]
    exact quiet_line_append (by decide) (by decide) _

theorem isOutcome_remove : s.IsOutcome kind (s.remove args) := by
  rw [remove]
  split
  · exact .refused (Desk.isReportable_invalid _)
  · refine .done (Desk.settled_remove hkind hs _) fun _ => ?_
    simp only [String.append_assoc]
    exact quiet_line_append (by decide) (by decide) _

theorem isOutcome_perform (hloose : s.desk.items.HasLooseTexts) (c : Command)
    (hadd : c = .add → ∀ draft, kind (s.desk.items.add draft s.desk.supply).2.1) :
    s.IsOutcome kind (s.perform args c) := by
  cases c with
  | list => exact isOutcome_list args hloose
  | add => exact isOutcome_add args (hadd rfl)
  | status => exact isOutcome_setStatus args hkind hs
  | tag => exact isOutcome_setTag args hkind hs true
  | untag => exact isOutcome_setTag args hkind hs false
  | remove => exact isOutcome_remove args hkind hs
  | sort => exact isOutcome_setSort args
  | help => exact .answered quiet_help
  | leave => exact .left

end

/-- The second shell goes on if the first does, and on the same screen. -/
structure Stays (s s' : Shell) : Prop where
  running : s'.running = s.running
  screen : s'.screen = s.screen

theorem Stays.refl (s : Shell) : s.Stays s := ⟨rfl, rfl⟩

theorem stays_onDesk {α : Type} (s : Shell) (done : Except Fault α × Desk) (say : α → String) :
    s.Stays (s.onDesk done say).2 := ⟨rfl, rfl⟩

theorem stays_setStatus (s : Shell) (args : List Char) : s.Stays (s.setStatus args).2 := by
  rw [setStatus]
  split
  · exact .refl s
  · split
    · exact .refl s
    · exact stays_onDesk s _ _

theorem stays_setTag (s : Shell) (args : List Char) (present : Bool) :
    s.Stays (s.setTag args present).2 := by
  rw [setTag]
  simp only
  split
  · exact .refl s
  · exact stays_onDesk s _ _

theorem stays_remove (s : Shell) (args : List Char) : s.Stays (s.remove args).2 := by
  rw [remove]
  split
  · exact .refl s
  · exact stays_onDesk s _ _

theorem stays_setSort (s : Shell) (args : List Char) : s.Stays (s.setSort args).2 := by
  rw [setSort]
  split
  · exact .refl s
  · split <;> exact ⟨rfl, rfl⟩

/-- Only the command to leave stops a shell. -/
theorem stays_perform (s : Shell) (args : List Char) {c : Command} (h : c ≠ .leave) :
    s.Stays (s.perform args c).2 := by
  cases c with
  | list | help => exact .refl s
  | add => exact stays_onDesk s _ _
  | status => exact stays_setStatus s args
  | tag | untag => exact stays_setTag s args _
  | remove => exact stays_remove s args
  | sort => exact stays_setSort s args
  | leave => exact absurd rfl h

theorem screen_perform (s : Shell) (args : List Char) (c : Command) :
    (s.perform args c).2.screen = s.screen := by
  by_cases h : c = .leave
  · rw [h, perform]
  · exact (stays_perform s args h).screen

end Shell

end TodoLists
