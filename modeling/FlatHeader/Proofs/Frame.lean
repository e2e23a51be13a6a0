import FlatHeader.Proofs.Blocks
import FlatHeader.Proofs.LeftToRight

/-!
# The frame of a header

The seed begins with the line of the include directive and ends with a character and a line feed
behind the last call. Whatever the names and the bodies hold, this frame is still there in a header.
The end stands behind every call of every text of a run (`suffix_of_generate`). The first line is a
front that no step changes, if none of its words is the name of a definition
(`firstLine_prefix_of_generate`). The clean-up reaches across neither end of the frame, since the
characters at its borders are in no mark.
-/

namespace FlatHeader

open Text

namespace SeedTemplate

/-- The first line of the default seed. -/
def firstLine : Text := "#include <darma.h>\n".toList

theorem firstLine_prefix_render (tags classes : List Text) :
    firstLine <+: render {} tags classes :=
  ⟨tags.flatMap (callLine (tagMacro {})) ++ classes.flatMap (callLine (classMacro {})), by rfl⟩

theorem nameFree_firstLine_iff (table : Table) :
    NameFree table firstLine ↔ table.contains "include".toList = false ∧
      table.contains "darma".toList = false ∧ table.contains "h".toList = false := by
  have hwords : words firstLine = ["include".toList, "darma".toList, "h".toList] := by rfl
  unfold NameFree
  rw [hwords, List.forall_mem_cons, List.forall_mem_cons, List.forall_mem_singleton]

end SeedTemplate

open SeedTemplate

section

variable {table : Table} {tags classes : List Text} {o : Options} {header : Text}

/-- The directive stays as it is when it is cleaned up: it is neither quoted nor joined with the
next line. -/
theorem cleanUp_firstLine_append (mode : ContinuationMode) (rest : Text) :
    cleanUp mode (firstLine ++ rest) = firstLine ++ cleanUp mode rest := by
  have hmark : Unmarking '>' := ⟨by decide, by decide, by decide⟩
  have hdirective : cleanUp mode "#include <darma.h>".toList = "#include <darma.h>".toList := by
    cases mode <;> rfl
  have hline := cleanUp_line hmark mode (a := "#include <darma.h>".toList) (by rfl) rest
  rwa [hdirective] at hline

/-- A header begins with the first line of the seed, if no word of this line is a name. -/
theorem firstLine_prefix_of_generate (hseed : o.seed = {}) (hnames : NameFree table firstLine)
    (h : generate table tags classes o = .ok header) : firstLine <+: header := by
  obtain ⟨expanded, hexpand, rfl⟩ := exists_expand_of_generate h
  obtain ⟨k, -, hrun, -⟩ := Expander.expand_eq_ok_iff.1 hexpand
  rw [hseed] at hrun
  have hfrozen : Frozen table firstLine (render {} tags classes) :=
    ⟨firstLine_prefix_render tags classes,
      (endsOutside_concat "#include <darma.h>".toList '\n').2 (by decide), hnames.not_hasCall⟩
  obtain ⟨rest, rfl⟩ := (hrun.frozen hfrozen).isPrefix
  rw [cleanUp_firstLine_append]
  exact List.prefix_append firstLine _

/-- The frame of the default seed is still there in a header, for any table, requested names,
selection, limit and continuation mode. If a name is requested, the header ends with `;` and a line
feed, and otherwise with `>` and a line feed. If no word of the include directive is the name of a
definition, the header begins with the directive and a line feed. -/
theorem generate_frame (hseed : o.seed = {}) (h : generate table tags classes o = .ok header) :
    (tags ++ classes ≠ [] → [';', '\n'] <:+ header) ∧
      (tags ++ classes = [] → ['>', '\n'] <:+ header) ∧
      (table.contains "include".toList = false → table.contains "darma".toList = false →
        table.contains "h".toList = false → "#include <darma.h>\n".toList <+: header) := by
  have hend := suffix_of_generate hseed h
  refine ⟨fun hnames => ?_, fun hnames => ?_, fun hinclude hdarma hh => ?_⟩
  · rwa [endSign, if_neg hnames] at hend
  · rwa [endSign, if_pos hnames] at hend
  · exact firstLine_prefix_of_generate hseed
      ((nameFree_firstLine_iff table).2 ⟨hinclude, hdarma, hh⟩) h

end

/-- A requested name that closes the call too early and opens another list, and a body that ends
with a backslash. -/
theorem generate_frame_unbalanced :
    ∃ table : Table, table.definitions =
        [⟨"DARMA_OO_DEFINE_TAG".toList, some ["x".toList], "(#x\\".toList⟩] ∧
      generate table [")(\\".toList] [] { selection := .definitionOrder } =
        .ok "#include <darma.h>\n(#\\(\\);\n".toList ∧
      ([")(\\".toList] : List Text) ++ [] ≠ [] ∧
      [';', '\n'] <:+ "#include <darma.h>\n(#\\(\\);\n".toList ∧
      table.contains "include".toList = false ∧ table.contains "darma".toList = false ∧
      table.contains "h".toList = false ∧
      "#include <darma.h>\n".toList <+: "#include <darma.h>\n(#\\(\\);\n".toList := by
  have hheader : generate
      (.ofList [⟨"DARMA_OO_DEFINE_TAG".toList, some ["x".toList], "(#x\\".toList⟩])
      [")(\\".toList] [] { selection := .definitionOrder } =
        .ok "#include <darma.h>\n(#\\(\\);\n".toList := by rfl
  obtain ⟨hend, -, hstart⟩ := generate_frame rfl hheader
  exact ⟨_, by rfl, hheader, by decide, hend (by decide), by decide, by decide, by decide,
    hstart (by decide) (by decide) (by decide)⟩

end FlatHeader
