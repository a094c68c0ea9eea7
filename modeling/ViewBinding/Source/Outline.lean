/-!
# Outlines

Text built line by line, where a line may open a block that the following lines are indented in.
-/

namespace ViewBinding

/-- The text so far and the number of blocks that are open. -/
structure Outline where
  text : String := ""
  depth : Nat := 0
  deriving DecidableEq, Repr

namespace Outline

/-- The indentation of one block. -/
def step : String := "    "

/-- Add a line inside the open blocks. -/
def line (o : Outline) (s : String) : Outline :=
  { o with text := o.text ++ String.join (List.replicate o.depth step) ++ s ++ "\n" }

/-- Add several lines inside the open blocks. -/
def lines (o : Outline) (ss : List String) : Outline := ss.foldl line o

/-- Add an empty line, which is not indented. -/
def blank (o : Outline) : Outline := { o with text := o.text ++ "\n" }

/-- Add a line that opens a block. -/
def opening (o : Outline) (s : String) : Outline :=
  { o.line s with depth := o.depth + 1 }

/-- Close a block with a line that stands outside it. -/
def closing (o : Outline) (s : String) : Outline :=
  { o with depth := o.depth - 1 }.line s

end Outline

end ViewBinding
