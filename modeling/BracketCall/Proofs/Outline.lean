import BracketCall.Proofs.Quotation
import BracketCall.Tree.Printer

/-!
# An outline tells its tree

The outline of a tree has one line for each node, from the root on, and only the spaces before a
line tell where its node belongs.  Still the tree can be rebuilt: the children of a node are the
lines below it up to the first that is not deeper.

**Method.**  A row of trees at one level is followed by a line that is less deep, or by nothing
(`Above`).  Two rows with such ends and the same lines are the same (`linesAllBy_append_inj`), by
recursion on the first row: the first lines tell the shape and the text of the first trees, and
their children are rows that end where a line of the level or above begins.  How texts are shown
does not matter, as long as no two are shown alike; for the outline they must also be one line each.

**Results.**
* `linesBy_inj`: the lines of a tree, at any level, tell the tree.
* `outlineBy_inj`: so does its outline.
* `outline_faithful`: both, for the quoted texts of any table of printable characters.
-/

namespace BracketCall
namespace Tree

/-! ## One line -/

/-- The spaces that a line begins with. -/
def indentation (line : String) : Nat :=
  (line.toList.takeWhile (· == ' ')).length

variable {quote : String → String}

theorem label_head (s : Shape) : ∃ c cs, s.label.toList = c :: cs ∧ (c == ' ') = false := by
  cases s <;> exact ⟨_, _, rfl, rfl⟩

/-- The shapes are told apart by the first letters of their names. -/
theorem shape_of_label_head {s s' : Shape}
    (h : s.label.toList.head? = s'.label.toList.head?) : s = s' := by
  cases s <;> cases s' <;> first | rfl | exact absurd h (by decide)

/-- The line of a node begins with the name of its shape. -/
theorem titleBy_eq_append (quote : String → String) (t : Tree) :
    ∃ rest, t.titleBy quote = t.shape.label ++ rest := by
  cases t with
  | program statements => exact ⟨"", by simp [titleBy, shape]⟩
  | call name arguments => exact ⟨" " ++ quote name, by simp [titleBy, shape, String.append_assoc]⟩
  | reference name => exact ⟨" " ++ quote name, by simp [titleBy, shape, String.append_assoc]⟩
  | word text => exact ⟨" " ++ quote text, by simp [titleBy, shape, String.append_assoc]⟩
  | literal text => exact ⟨" " ++ quote text, by simp [titleBy, shape, String.append_assoc]⟩

theorem titleBy_head (quote : String → String) (t : Tree) :
    (t.titleBy quote).toList.head? = t.shape.label.toList.head? := by
  obtain ⟨rest, hrest⟩ := titleBy_eq_append quote t
  obtain ⟨c, cs, hlabel, -⟩ := label_head t.shape
  rw [hrest, String.toList_append, hlabel]
  rfl

/-- The line of a node and its children tell the node. -/
theorem eq_of_titleBy (hquote : Function.Injective quote) {a b : Tree}
    (htitle : a.titleBy quote = b.titleBy quote) (hchildren : a.children = b.children) : a = b := by
  have hshape : a.shape = b.shape := by
    apply shape_of_label_head
    rw [← titleBy_head quote a, ← titleBy_head quote b, htitle]
  cases a <;> cases b <;> cases hshape <;>
    simp_all [titleBy, children, String.append_right_inj, hquote.eq_iff]

theorem indentation_line (level : Nat) (t : Tree) :
    indentation (margin level ++ t.titleBy quote) = 2 * level := by
  obtain ⟨rest, hrest⟩ := titleBy_eq_append quote t
  obtain ⟨c, cs, hlabel, hc⟩ := label_head t.shape
  have hspaces : ∀ d ∈ List.replicate (2 * level) ' ', (d == ' ') = true := by
    intro d hd
    rw [List.eq_of_mem_replicate hd]
    rfl
  rw [indentation, hrest, String.toList_append, String.toList_append, hlabel, margin,
    String.toList_ofList, Int.toNat_natCast, List.takeWhile_append_of_pos hspaces]
  simp [hc]

/-! ## Rows of trees -/

/-- The line of a tree, the lines of its children, and the lines of the trees behind it. -/
theorem linesAllBy_cons (level : Nat) (t : Tree) (ts : List Tree) :
    linesAllBy quote level (t :: ts) =
      (margin level ++ t.titleBy quote) ::
        (linesAllBy quote (level + 1 : Nat) t.children ++ linesAllBy quote level ts) := by
  cases t <;> rfl

theorem sizeOf_children (t : Tree) (ts : List Tree) : sizeOf t.children < sizeOf (t :: ts) := by
  cases t <;> simp only [children, List.cons.sizeOf_spec, List.nil.sizeOf_spec, program.sizeOf_spec,
    call.sizeOf_spec, reference.sizeOf_spec, word.sizeOf_spec, literal.sizeOf_spec] <;> omega

/-- The first line, if there is one, is less deep than the level. -/
def Above (level : Nat) (lines : List String) : Prop :=
  ∀ line ∈ lines.head?, indentation line < 2 * level

theorem not_above_linesAllBy (level : Nat) (t : Tree) (ts : List Tree) (rest : List String) :
    ¬ Above level (linesAllBy quote level (t :: ts) ++ rest) := by
  intro h
  rw [linesAllBy_cons] at h
  have hfirst := h _ rfl
  rw [indentation_line] at hfirst
  exact Nat.lt_irrefl _ hfirst

theorem Above.linesAllBy {level : Nat} {rest : List String} (h : Above level rest)
    (ts : List Tree) : Above (level + 1) (linesAllBy quote level ts ++ rest) := by
  intro line hline
  cases ts with
  | nil =>
      have hrest := h line hline
      omega
  | cons t ts =>
      rw [linesAllBy_cons] at hline
      cases hline
      rw [indentation_line]
      omega

/-- Two rows of trees at one level, of which each ends where the lines get less deep, are the same
if their lines are. -/
theorem linesAllBy_append_inj (hquote : Function.Injective quote) (as bs : List Tree) (level : Nat)
    {rest rest' : List String} (hrest : Above level rest) (hrest' : Above level rest')
    (h : linesAllBy quote level as ++ rest = linesAllBy quote level bs ++ rest') :
    as = bs ∧ rest = rest' := by
  match as, bs with
  | [], [] => exact ⟨rfl, h⟩
  | [], b :: bs =>
      rw [show rest = _ from h] at hrest
      exact absurd hrest (not_above_linesAllBy level b bs rest')
  | a :: as, [] =>
      rw [show rest' = _ from h.symm] at hrest'
      exact absurd hrest' (not_above_linesAllBy level a as rest)
  | a :: as, b :: bs =>
      rw [linesAllBy_cons, linesAllBy_cons, List.cons_append, List.cons_append, List.append_assoc,
        List.append_assoc] at h
      obtain ⟨hline, hlater⟩ := List.cons.inj h
      have hdecreases := sizeOf_children a as
      obtain ⟨hchildren, hbehind⟩ := linesAllBy_append_inj hquote a.children b.children (level + 1)
        (hrest.linesAllBy as) (hrest'.linesAllBy bs) hlater
      obtain ⟨rfl, hends⟩ := linesAllBy_append_inj hquote as bs level hrest hrest' hbehind
      have htitle : a.titleBy quote = b.titleBy quote := (String.append_right_inj _).mp hline
      rw [eq_of_titleBy hquote htitle hchildren]
      exact ⟨rfl, hends⟩
termination_by sizeOf as

/-- The lines of a tree tell the tree. -/
theorem linesBy_inj (hquote : Function.Injective quote) {level : Nat} {a b : Tree}
    (h : a.linesBy quote level = b.linesBy quote level) : a = b := by
  have hrow : linesAllBy quote level [a] ++ [] = linesAllBy quote level [b] ++ [] := by
    simp only [linesAllBy, h]
  have hend : Above level [] := nofun
  exact (List.cons.inj (linesAllBy_append_inj hquote [a] [b] level hend hend hrow).1).1

/-! ## Outlines -/

/-- Every line is the line of a node. -/
theorem exists_of_mem_linesAllBy (ts : List Tree) (level : Nat) {line : String}
    (h : line ∈ linesAllBy quote level ts) :
    ∃ (depth : Nat) (t : Tree), line = margin depth ++ t.titleBy quote := by
  match ts with
  | [] => cases h
  | t :: ts =>
      have hdecreases := sizeOf_children t ts
      rw [linesAllBy_cons, List.mem_cons, List.mem_append] at h
      rcases h with rfl | h | h
      · exact ⟨level, t, rfl⟩
      · exact exists_of_mem_linesAllBy t.children (level + 1) h
      · exact exists_of_mem_linesAllBy ts level h
termination_by sizeOf ts

theorem newline_not_mem_titleBy (hline : ∀ s, '\n' ∉ (quote s).toList) (t : Tree) :
    '\n' ∉ (t.titleBy quote).toList := by
  cases t <;> simp [titleBy, Shape.label, hline]

/-- No line has a line break in it. -/
theorem newline_not_mem_linesBy (hline : ∀ s, '\n' ∉ (quote s).toList) (t : Tree) :
    ∀ line ∈ t.linesBy quote 0, '\n' ∉ line.toList := by
  intro line hmem
  have hrow : line ∈ linesAllBy quote (0 : Nat) [t] := by
    rw [linesAllBy, linesAllBy, List.append_nil]
    exact hmem
  obtain ⟨depth, u, rfl⟩ := exists_of_mem_linesAllBy [t] 0 hrow
  have htitle := newline_not_mem_titleBy hline u
  simp [margin, htitle]

theorem linesBy_ne_nil (level : Int) (t : Tree) : t.linesBy quote level ≠ [] := by
  cases t <;> simp [linesBy]

/-- An outline can be taken apart into its lines. -/
theorem splitOn_outlineBy (hline : ∀ s, '\n' ∉ (quote s).toList) (t : Tree) :
    (t.outlineBy quote).toList.splitOn '\n' = (t.linesBy quote 0).map String.toList := by
  rw [outlineBy, String.toList_intercalate]
  refine List.splitOn_intercalate '\n' ?_ ?_
  · intro cs hcs
    obtain ⟨line, hmem, rfl⟩ := List.mem_map.mp hcs
    exact newline_not_mem_linesBy hline t line hmem
  · simpa using linesBy_ne_nil 0 t

/-- The outline of a tree tells the tree. -/
theorem outlineBy_inj (hquote : Function.Injective quote) (hline : ∀ s, '\n' ∉ (quote s).toList)
    {a b : Tree} (h : a.outlineBy quote = b.outlineBy quote) : a = b := by
  have hsplit := congrArg (fun s => s.toList.splitOn '\n') h
  simp only [splitOn_outlineBy hline] at hsplit
  have hlines : a.linesBy quote (0 : Nat) = b.linesBy quote (0 : Nat) :=
    (List.map_inj_right fun _ _ heq => String.toList_inj.mp heq).mp hsplit
  exact linesBy_inj hquote hlines

/-- **An outline loses nothing.**  Trees with the same outline are the same, and so are trees with
the same lines at any level, whichever characters count as printable. -/
theorem outline_faithful (a b : Tree) :
    (a.outline = b.outline ↔ a = b) ∧
    (∀ level : Nat, a.lines level = b.lines level ↔ a = b) ∧
    ∀ printable : Char → Bool,
      (a.outlineBy (Text.quotedBy printable) = b.outlineBy (Text.quotedBy printable) ↔ a = b) ∧
      ∀ level : Nat, a.linesBy (Text.quotedBy printable) level =
        b.linesBy (Text.quotedBy printable) level ↔ a = b := by
  have houtline : ∀ printable : Char → Bool,
      a.outlineBy (Text.quotedBy printable) = b.outlineBy (Text.quotedBy printable) ↔ a = b :=
    fun printable => ⟨outlineBy_inj (Text.quotedBy_injective printable)
      (Text.newline_not_mem_quotedBy printable), fun h => h ▸ rfl⟩
  have hlines : ∀ (printable : Char → Bool) (level : Nat),
      a.linesBy (Text.quotedBy printable) level = b.linesBy (Text.quotedBy printable) level ↔
        a = b :=
    fun printable level => ⟨linesBy_inj (Text.quotedBy_injective printable), fun h => h ▸ rfl⟩
  exact ⟨houtline Text.isPrintable, hlines Text.isPrintable,
    fun printable => ⟨houtline printable, hlines printable⟩⟩

end Tree
end BracketCall
