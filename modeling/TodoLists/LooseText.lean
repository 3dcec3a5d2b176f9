/-!
# Loose texts

JSON can spell a text in which a surrogate stands without its partner. Such a text is no sequence of
characters, and yet it has to be kept, compared and written back as it came. So the texts of files
are kept as their code points; a text without lone surrogates is a `String` and nothing else.
-/

namespace TodoLists

structure LooseText where
  points : List Nat
  deriving DecidableEq, Repr, Inhabited

namespace LooseText

def ofString (s : String) : LooseText := ⟨s.toList.map Char.toNat⟩

instance : Coe String LooseText := ⟨ofString⟩

/-- By code points, the shorter text first when it begins the longer one. -/
instance : Ord LooseText := ⟨fun s t => compare s.points t.points⟩

def isEmpty (t : LooseText) : Bool := t.points.isEmpty

def charOf? (n : Nat) : Option Char := if n.isValidChar then some (Char.ofNat n) else none

/-- The text as characters, when it has no lone surrogate. -/
def toString? (t : LooseText) : Option String := (t.points.mapM charOf?).map String.ofList

/-- The text with U+FFFD in place of each lone surrogate. -/
def shown (t : LooseText) : String :=
  String.ofList (t.points.map fun n => (charOf? n).getD (Char.ofNat 0xfffd))

theorem charOf?_toNat (c : Char) : charOf? c.toNat = some c := by
  have h : c.toNat.isValidChar := c.valid
  rw [charOf?, if_pos h, Char.ofNat_toNat]

@[simp] theorem toString?_ofString (s : String) : (ofString s).toString? = some s := by
  have h : ∀ cs : List Char, (cs.map Char.toNat).mapM charOf? = some cs := by
    intro cs
    induction cs with
    | nil => rfl
    | cons c cs ih => simp [List.mapM_cons, charOf?_toNat, ih]
  simp [toString?, ofString, h]

theorem ofString_inj {s t : String} : ofString s = ofString t ↔ s = t :=
  ⟨fun h => by simpa using congrArg toString? h, congrArg ofString⟩

@[simp] theorem shown_ofString (s : String) : (ofString s).shown = s := by
  simp [shown, ofString, Function.comp_def, charOf?_toNat]

end LooseText

end TodoLists
