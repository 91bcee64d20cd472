/-!
# Cell content

The rich text of a cell is a tree whose leaves are runs of text. Only the text matters for
calculation: it is read in document order, whatever the grouping.

## Main definitions

* `Content`: A run of text or a group of contents.
* `Content.empty`: The content of a cell nothing was written into.
* `Content.plainText`: All runs of text, in document order.
-/

namespace Worksheet

/-- Rich text: a run of text, or a group such as a paragraph. -/
inductive Content where
  /-- A run of text. -/
  | run (text : String)
  /-- A group of contents, in document order. -/
  | group (children : List Content)

namespace Content

/-- The content of a cell nothing was written into. -/
def empty : Content := group []

mutual

/-- All runs of text, in document order. -/
def plainText : Content → String
  | run text => text
  | group children => plainTextAll children

/-- The runs of text of several contents, in order. -/
def plainTextAll : List Content → String
  | [] => ""
  | child :: rest => child.plainText ++ plainTextAll rest

end

instance : Inhabited Content := ⟨empty⟩

theorem plainText_run (text : String) : (run text).plainText = text := by
  rw [plainText]

theorem plainText_empty : empty.plainText = "" := by
  rw [empty, plainText, plainTextAll]

end Content

end Worksheet
