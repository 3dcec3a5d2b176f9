import TodoLists.Proofs.CommandLine.Failure
import TodoLists.Proofs.Json.LongNumerals
import TodoLists.Proofs.ListFile.Refusal

/-!
# Files from which no configuration is loaded

What is wrong with a configuration file is reported as a fault of that file, with three exceptions:
bytes that are not UTF-8, a whole number of too many digits, and an element of the registry that has
elements itself, but not two of them. Each is a bad value to the conversion that comes upon it, and
such a fault is not looked for.
-/

namespace TodoLists

namespace Config

variable {d : Disk} {p : Path} {content : ByteArray}

/-! ### The registry -/

/-- A name and a path. -/
def IsPair (v : Json) : Prop :=
  ∃ name path, ListFile.elements? v = some [name, path] ∧ name.isScalar = true

/-- Something that has elements, but not two of them. -/
def IsUneven (v : Json) : Prop := ∃ es, ListFile.elements? v = some es ∧ es.length ≠ 2

/-- A registry that is no object, and in which something uneven comes after pairs. -/
structure HoldsUneven (v : Json) : Prop where
  notObject : ∀ ms, v ≠ .obj ms
  uneven : ∃ before bad after, ListFile.elements? v = some (before ++ bad :: after) ∧
    (∀ w ∈ before, IsPair w) ∧ IsUneven bad

theorem exists_readPair_iff {v : Json} : (∃ pair, readPair v = .ok pair) ↔ IsPair v := by
  rw [readPair]
  constructor
  · rintro ⟨pair, h⟩
    split at h
    · cases h
    · next name path hes =>
      split at h
      · next hscalar => exact ⟨name, path, hes, hscalar⟩
      · cases h
    · cases h
  · rintro ⟨name, path, hes, hscalar⟩
    rw [hes]
    exact ⟨(name, path), if_pos hscalar⟩

/-- Of a pair nothing but its length is a bad value. -/
theorem readPair_eq_error_iff {v : Json} {c : Cause} (hc : c.isBadValue = true) :
    readPair v = .error c ↔ c = .notAPair ∧ IsUneven v := by
  rw [readPair]
  constructor
  · intro h
    split at h
    · cases h
      cases hc
    · split at h
      · cases h
      · cases h
        cases hc
    · next es hlength hes =>
      cases h
      refine ⟨rfl, es, hes, fun htwo => ?_⟩
      obtain ⟨name, path, rfl⟩ := List.length_eq_two.1 htwo
      exact hlength name path rfl
  · rintro ⟨rfl, es, hes, hlength⟩
    rw [hes]
    split
    · next hnone => cases hnone
    · next heq =>
      cases heq
      exact absurd rfl hlength
    · rfl

theorem readLists_eq {v : Json} (h : ∀ ms, v ≠ .obj ms) :
    readLists v = (match ListFile.elements? v with
      | some es => es.mapM readPair
      | none => .error .notPairs).map
        (List.foldl (fun ls (pair : Json × Json) => putPair pair.1 pair.2 ls) []) := by
  cases v with
  | obj ms => exact absurd rfl (h ms)
  | _ => rfl

theorem readLists_eq_error_iff {v : Json} {c : Cause} (hc : c.isBadValue = true) :
    readLists v = .error c ↔ c = .notAPair ∧ HoldsUneven v := by
  constructor
  · intro h
    have hobject : ∀ ms, v ≠ .obj ms := by
      rintro ms rfl
      cases h
    rw [readLists_eq hobject] at h
    have h := eq_error_of_map_eq_error h
    split at h
    · next es hes =>
      obtain ⟨before, bad, after, rfl, hbefore, hbad⟩ := exists_of_mapM_eq_error h
      obtain ⟨rfl, huneven⟩ := (readPair_eq_error_iff hc).1 hbad
      exact ⟨rfl, hobject, before, bad, after, hes,
        fun w hw => exists_readPair_iff.1 (hbefore w hw), huneven⟩
    · cases h
      cases hc
  · rintro ⟨rfl, hobject, before, bad, after, hes, hbefore, hbad⟩
    have hreads := mapM_eq_error (fun w hw => exists_readPair_iff.2 (hbefore w hw))
      ((readPair_eq_error_iff hc).2 ⟨rfl, hbad⟩) after
    rw [readLists_eq hobject, hes]
    simp only [hreads, Except.map]

/-! ### The whole file -/

theorem isBadValue_of_set {o : Options} {name : LooseText} {v : Json} {c : Cause}
    (h : o.set name v = .error c) : c.isBadValue = false := by
  rw [Options.set] at h
  split at h
  · cases h
  · split at h
    · cases h
    · split at h
      · cases h
      · cases h
        rfl

/-- The options hold nothing that is converted, so no bad value. -/
theorem isBadValue_of_options {v : Json} {c : Cause} (h : Options.ofJson v = .error c) :
    c.isBadValue = false := by
  have hfold : ∀ (ms : List (LooseText × Json)) (o : Options),
      ms.foldlM (fun o m => o.set m.1 m.2) o = .error c → c.isBadValue = false := by
    intro ms
    induction ms with
    | nil =>
      intro o h
      cases h
    | cons m ms ih =>
      intro o h
      rw [List.foldlM_cons] at h
      rcases cases_of_bind_eq_error h with hset | ⟨o', -, h⟩
      · exact isBadValue_of_set hset
      · exact ih o' h
  cases v with
  | obj ms => exact hfold ms .default h
  | _ =>
    cases h
    rfl

theorem ofJson_eq_error_iff {v : Json} {c : Cause} (hc : c.isBadValue = true) :
    ofJson v = .error c ↔ c = .notAPair ∧ ∃ ms lists, v = .obj ms ∧
      Json.member? "lists" ms = some lists ∧ HoldsUneven lists := by
  constructor
  · intro h
    cases v with
    | obj ms =>
      rcases cases_of_bind_eq_error h with hlists | ⟨lists, -, h⟩
      · obtain ⟨rfl, huneven⟩ := (readLists_eq_error_iff hc).1 hlists
        refine ⟨rfl, ms, ?_⟩
        cases hmember : Json.member? "lists" ms with
        | none =>
          rw [hmember] at huneven
          exact absurd rfl (huneven.notObject [])
        | some lists =>
          rw [hmember] at huneven
          exact ⟨lists, rfl, rfl, huneven⟩
      · rcases cases_of_bind_eq_error h with hoptions | ⟨options, -, h⟩
        · rw [isBadValue_of_options hoptions] at hc
          cases hc
        · cases h
    | _ =>
      cases h
      cases hc
  · rintro ⟨rfl, ms, lists, rfl, hmember, huneven⟩
    have hlists := (readLists_eq_error_iff hc).2 ⟨rfl, huneven⟩
    rw [ofJson, hmember, Option.getD_some, hlists]
    rfl

/-- Bytes of a file over which a conversion fails in a way that is not reported as a fault of the
file. -/
inductive Escapes (content : ByteArray) : Cause → Prop where
  | bytes (h : String.fromUTF8? content = none) : Escapes content .notUtf8
  /-- Everything before the numeral can be read. -/
  | numeral {text : String} (htext : String.fromUTF8? content = some text)
    (h : Json.MeetsLong text.toList) : Escapes content .numeralTooLong
  | pair {text : String} {ms : List (LooseText × Json)} {lists : Json}
    (htext : String.fromUTF8? content = some text) (hread : Json.read text = .ok (.obj ms))
    (hmember : Json.member? "lists" ms = some lists) (h : HoldsUneven lists) :
    Escapes content .notAPair

theorem Escapes.isBadValue {c : Cause} (h : Escapes content c) : c.isBadValue = true := by
  cases h <;> rfl

theorem decode_eq_error_iff {c : Cause} (hc : c.isBadValue = true) :
    decode content = .error c ↔ Escapes content c := by
  constructor
  · intro h
    rw [decode] at h
    split at h
    · next hbytes =>
      cases h
      exact .bytes hbytes
    · next text htext =>
      rcases cases_of_bind_eq_error h with hparse | ⟨v, hv, h⟩
      · rw [ListFile.parse] at hparse
        split at hparse
        · cases hparse
        · cases hparse
          cases hc
        · next hread =>
          cases hparse
          exact .numeral htext (Json.read_eq_tooLong_iff.1 hread)
      · obtain ⟨rfl, ms, lists, rfl, hmember, huneven⟩ := (ofJson_eq_error_iff hc).1 h
        exact .pair htext (ListFile.parse_eq_ok_iff.1 hv) hmember huneven
  · intro h
    rw [decode]
    cases h with
    | bytes h => rw [h]
    | numeral htext h =>
      rw [htext]
      simp only [ListFile.parse, Json.read_eq_tooLong_iff.2 h]
      rfl
    | pair htext hread hmember h =>
      rw [htext]
      simp only [ListFile.parse_eq_ok_iff.2 hread]
      exact (ofJson_eq_error_iff rfl).2 ⟨rfl, _, _, rfl, hmember, h⟩

/-! ### Loading -/

theorem exists_loadFault_eq_configFile {c : Cause} (h : c.isBadValue = false) :
    ∃ trouble, loadFault p c = .configFile p trouble c := by
  by_cases hjson : c = .notJson
  · rw [hjson]
    exact ⟨.unreadable, rfl⟩
  · refine ⟨.malformed, ?_⟩
    unfold loadFault
    rw [h, if_neg Bool.false_ne_true]
    split
    · exact absurd rfl hjson
    · rfl

theorem loadFrom_of_read (h : d.read p = .ok content) :
    loadFrom d p = (decode content).mapError (loadFault p) := by
  rw [loadFrom, Disk.has_of_read h]
  simp only [h]

theorem loadFrom_of_escapes {c : Cause} (hread : d.read p = .ok content)
    (h : Escapes content c) : loadFrom d p = .error (.unforeseen c) := by
  rw [loadFrom_of_read hread, (decode_eq_error_iff h.isBadValue).2 h]
  exact congrArg Except.error (if_pos h.isBadValue)

/-- Loading the configuration from a file gives a configuration or reports a fault of the file,
unless the file holds bytes that are not UTF-8, comes to too long a numeral, or has something uneven
in its registry. -/
theorem load_fails_as_documented_iff {e : Environment}
    (hread : d.read (e.configPath d) = .ok content) :
    ((∃ config, load e d = .ok config) ∨ ∃ trouble cause,
        load e d = .error (.configFile (e.configPath d) trouble cause)) ↔
      ∀ c, ¬ Escapes content c := by
  constructor
  · intro hdocumented c hescapes
    have hload : load e d = .error (.unforeseen c) := loadFrom_of_escapes hread hescapes
    rw [hload] at hdocumented
    rcases hdocumented with ⟨config, hconfig⟩ | ⟨trouble, cause, hfault⟩
    · cases hconfig
    · cases hfault
  · intro hnone
    rw [load, loadFrom_of_read hread]
    cases hdecode : decode content with
    | ok config => exact Or.inl ⟨config, rfl⟩
    | error c =>
      have hc : c.isBadValue = false :=
        Bool.eq_false_iff.2 fun hc => hnone c ((decode_eq_error_iff hc).1 hdecode)
      obtain ⟨trouble, htrouble⟩ := exists_loadFault_eq_configFile hc
      exact Or.inr ⟨trouble, c, congrArg Except.error htrouble⟩

/-! ### Files with given bytes -/

open CommandLine (atRoot locate_config)

/-- A disk with nothing but the configuration file. -/
def holding (content : ByteArray) : Disk :=
  ⟨[], [(["todoq"], .folder), (["todoq", "config.json"], .file content)]⟩

theorem read_holding (content : ByteArray) :
    (holding content).read (atRoot.configPath (holding content)) = .ok content := by
  rw [Disk.read, CommandLine.configPath_atRoot, holding, locate_config]
  rfl

/-- Where the registry should be there is a number. -/
theorem load_fails_as_documented_iff_number : ∃ content,
    (holding content).read (atRoot.configPath (holding content)) = .ok content ∧
      ((∃ config, load atRoot (holding content) = .ok config) ∨ ∃ trouble cause,
        load atRoot (holding content) =
          .error (.configFile (atRoot.configPath (holding content)) trouble cause)) := by
  have hregular : (Json.obj [("lists", .int 5)]).Regular fun _ => False :=
    .obj (by simp) (List.forall_mem_singleton.2 (LooseText.isJoined_ofString _))
      (List.forall_mem_singleton.2 (.int (by decide)))
  have hvalue := Json.read_write hregular
  have hread := read_holding (Json.obj [("lists", .int 5)]).write.toUTF8
  refine ⟨_, hread, (load_fails_as_documented_iff hread).2 fun c hescapes => ?_⟩
  cases hescapes with
  | bytes h => cases (fromUTF8?_toUTF8 _).symm.trans h
  | numeral htext h =>
    obtain rfl := Option.some.inj ((fromUTF8?_toUTF8 _).symm.trans htext)
    cases hvalue.symm.trans (Json.read_eq_tooLong_iff.2 h)
  | pair htext hread hmember h =>
    obtain rfl := Option.some.inj ((fromUTF8?_toUTF8 _).symm.trans htext)
    obtain rfl := Json.obj.inj (Except.ok.inj (hvalue.symm.trans hread))
    obtain rfl := Option.some.inj hmember
    obtain ⟨_, _, _, hnone, -⟩ := h.uneven
    cases hnone

/-- A single byte that begins no character fails in a way that is reported as a fault of no file. -/
theorem load_byte_unreported :
    ¬ ∀ (e : Environment) (d : Disk) (content : ByteArray),
      d.read (e.configPath d) = .ok content → (∃ config, load e d = .ok config) ∨
        ∃ trouble cause, load e d = .error (.configFile (e.configPath d) trouble cause) := by
  intro hall
  have hbytes : String.fromUTF8? ⟨#[0xff]⟩ = none := by decide
  have hread := read_holding ⟨#[0xff]⟩
  have hload : load atRoot (holding ⟨#[0xff]⟩) = .error (.unforeseen .notUtf8) :=
    loadFrom_of_escapes hread (.bytes hbytes)
  rcases hall _ _ _ hread with ⟨config, hconfig⟩ | ⟨trouble, cause, hfault⟩
  · cases hload.symm.trans hconfig
  · cases hload.symm.trans hfault

end Config

end TodoLists
