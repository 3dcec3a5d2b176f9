import TodoLists.Display

/-!
# The screen

A screen reads the texts that are shown as markup, tables cell by cell, and cannot show an output in
which one of them cannot be read. Questions and prompts are shown as they are. A plain screen does
not look for markup at all.
-/

namespace TodoLists

inductive Screen where
  | plain
  | styled (reading : Markup.Reading)

/-- The texts of an output that may hold markup. -/
def Output.texts : Output → List String
  | line text => [text]
  | table t => t.title :: (t.columns ++ t.rows.flatten)
  | question _ => []
  | prompt _ => []

namespace Screen

def canRead : Screen → String → Bool
  | plain, _ => true
  | styled reading, text => reading.canRead text

def shows (s : Screen) (o : Output) : Bool := o.texts.all s.canRead

end Screen

end TodoLists
