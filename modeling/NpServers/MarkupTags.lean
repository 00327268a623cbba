import Mathlib.Data.List.Induction
import Mathlib.Tactic.Common

namespace NpServers.MarkupTags

/-!
# Tags of a markup text

A text is read from left to right.  A `<` opens a tag, the next `>` ends it, and
what follows up to the next `<` is the text behind that tag.  The reader is a
fold over the symbols, so a text that is printed piece by piece is read piece by
piece.
-/

/-- A tag and the text behind it. -/
structure Element where
  tag : List Char
  text : List Char
deriving DecidableEq, Repr

/--
The reader between two symbols: the tag before the text it is in, the word it
has read of a tag or a text, and the elements that are complete.
-/
structure Reader where
  inTag : Bool
  tag : List Char
  word : List Char
  elements : List Element
deriving DecidableEq, Repr

namespace Reader

/-- The reader at the start of a text, which stands behind no tag. -/
def start : Reader where
  inTag := false
  tag := []
  word := []
  elements := []

/-- The element that the next `<` completes. -/
def current (reader : Reader) : Element where
  tag := reader.tag
  text := reader.word

/-- One more symbol of a word. -/
def keep
    (reader : Reader)
    (symbol : Char) : Reader :=
  { reader with word := reader.word ++ [symbol] }

/-- The reader behind one symbol. -/
def step
    (reader : Reader)
    (symbol : Char) : Reader :=
  if reader.inTag then
    if symbol = '>' then
      { reader with inTag := false, tag := reader.word, word := [] }
    else
      reader.keep symbol
  else if symbol = '<' then
    { inTag := true
      tag := []
      word := []
      elements := reader.elements ++ [reader.current] }
  else
    reader.keep symbol

/-- The reader behind a text. -/
def read
    (reader : Reader)
    (text : List Char) : Reader :=
  text.foldl step reader

/-- The reader behind a whole tag. -/
def behindTag
    (reader : Reader)
    (tag : List Char) : Reader where
  inTag := false
  tag := tag
  word := []
  elements := reader.elements ++ [reader.current]

/-- The reader with more text read behind the last tag. -/
def behindText
    (reader : Reader)
    (text : List Char) : Reader :=
  { reader with word := reader.word ++ text }

end Reader

/-- The elements of a text; one in which a tag is left open ends before it. -/
def elements (text : List Char) : List Element :=
  let reader := Reader.start.read text
  reader.elements ++ if reader.inTag then [] else [reader.current]

/-! ## Reading piece by piece -/

namespace Reader

variable {reader : Reader}

@[simp] theorem read_nil : reader.read [] = reader :=
  rfl

@[simp] theorem read_append
    (first second : List Char) :
    reader.read (first ++ second) = (reader.read first).read second :=
  List.foldl_append

/-- Symbols that do not end a word are kept. -/
theorem read_keep
    {ending : Char}
    (keeps :
      ∀ (reader' : Reader) symbol,
        reader'.inTag = reader.inTag →
        symbol ≠ ending →
        reader'.step symbol = reader'.keep symbol)
    {word : List Char}
    (plain : ending ∉ word) :
    reader.read word = reader.behindText word := by
  induction word using List.reverseRecOn with
  | nil =>
      simp [behindText]
  | append_singleton before symbol inductionHypothesis =>
      rw [List.mem_append, List.mem_singleton, not_or] at plain
      have kept : (reader.behindText before).step symbol = _ :=
        keeps _ symbol rfl (Ne.symm plain.2)
      rw [read_append, inductionHypothesis plain.1]
      change (reader.behindText before).step symbol = _
      rw [kept]
      simp [keep, behindText]

/-- Text without `<` stays behind the last tag. -/
theorem read_text
    (inText : reader.inTag = false)
    {text : List Char}
    (plain : '<' ∉ text) :
    reader.read text = reader.behindText text := by
  refine read_keep ?_ plain
  intro reader' symbol sameMode notEnding
  simp [step, sameMode, inText, notEnding]

/-- A whole tag completes the element before it. -/
theorem read_tag
    (inText : reader.inTag = false)
    {tag : List Char}
    (plain : '>' ∉ tag) :
    reader.read ('<' :: tag ++ ['>']) = reader.behindTag tag := by
  have opened :
      reader.read ['<'] =
        { inTag := true
          tag := []
          word := []
          elements := reader.elements ++ [reader.current] } := by
    simp [read, step, inText]
  have inside :
      (reader.read ['<']).read tag = (reader.read ['<']).behindText tag := by
    refine read_keep ?_ plain
    intro reader' symbol sameMode notEnding
    simp [step, sameMode, opened, notEnding]
  have split : '<' :: tag ++ ['>'] = ['<'] ++ (tag ++ ['>']) :=
    rfl
  rw [split, read_append, read_append, inside, opened]
  simp [read, step, behindText, behindTag]

@[simp] theorem behindText_inTag (text : List Char) :
    (reader.behindText text).inTag = reader.inTag :=
  rfl

@[simp] theorem behindText_elements (text : List Char) :
    (reader.behindText text).elements = reader.elements :=
  rfl

@[simp] theorem behindText_tag (text : List Char) :
    (reader.behindText text).tag = reader.tag :=
  rfl

@[simp] theorem behindTag_inTag (tag : List Char) :
    (reader.behindTag tag).inTag = false :=
  rfl

@[simp] theorem behindTag_tag (tag : List Char) :
    (reader.behindTag tag).tag = tag :=
  rfl

/-- A text is read up to its first `<`, or as a whole. -/
theorem read_upToTag
    (inText : reader.inTag = false)
    {before behind : List Char}
    (plain : '<' ∉ before) :
    reader.read (before ++ '<' :: behind) =
      ({ inTag := true
         tag := []
         word := []
         elements :=
          reader.elements ++ [{ tag := reader.tag, text := reader.word ++ before }]
         } : Reader).read behind := by
  rw [read_append, read_text inText plain]
  change ((reader.behindText before).step '<').read behind = _
  congr 1
  simp [step, inText, behindText, current]

/-- Complete elements stay as they are. -/
theorem elements_prefix
    (reader : Reader)
    (text : List Char) :
    reader.elements <+: (reader.read text).elements := by
  induction text generalizing reader with
  | nil =>
      exact List.prefix_refl _
  | cons symbol rest inductionHypothesis =>
      have first : reader.elements <+: (reader.step symbol).elements := by
        unfold step
        split_ifs
        · exact List.prefix_refl _
        · exact List.prefix_refl _
        · exact List.prefix_append _ _
        · exact List.prefix_refl _
      exact first.trans (inductionHypothesis (reader.step symbol))

end Reader

/-! ## What is selected from the elements -/

section Select

variable {Selected : Type}

/-- No element with this tag is selected. -/
def Ignores
    (select : Element → Option Selected)
    (tag : List Char) : Prop :=
  ∀ text, select { tag := tag, text := text } = none

/-- What is selected from the elements read so far. -/
def Reader.selected
    (reader : Reader)
    (select : Element → Option Selected) : List Selected :=
  (reader.elements ++ [reader.current]).filterMap select

variable {select : Element → Option Selected}
variable {reader : Reader}

/-- More text behind a tag that is ignored selects nothing. -/
theorem Reader.selected_behindText
    (ignores : Ignores select reader.tag)
    (text : List Char) :
    (reader.behindText text).selected select = reader.selected select := by
  have now : select reader.current = none := ignores reader.word
  have later : select (reader.behindText text).current = none :=
    ignores (reader.word ++ text)
  simp [selected, now, later]

/-- A tag and the text behind it select what that element selects. -/
theorem Reader.selected_element
    (tag text : List Char) :
    ((reader.behindTag tag).behindText text).selected select =
      reader.selected select ++
        (select { tag := tag, text := text }).toList := by
  let element : Element := { tag := tag, text := text }
  change
    ((reader.elements ++ [reader.current]) ++ [element]).filterMap select = _
  rw [List.filterMap_append, List.filterMap_cons]
  congr 1

end Select

end NpServers.MarkupTags
