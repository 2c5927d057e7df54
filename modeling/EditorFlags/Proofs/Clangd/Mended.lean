import EditorFlags.Proofs.Clangd.Warnings
import EditorFlags.Proofs.Path.Mended

/-!
# Bases that are no text

The path of an include is resolved against the bytes of the base and only then made text. The text
is the same as if the base had been made text at first (`push_mended`), and what is said of it goes
by the names that are left in the path, not by those that a parent has taken away. Whatever the
base is, all that is ever written is text.
-/

namespace EditorFlags.Clangd

namespace Writer

variable {writer : Writer} {token : String}

theorem push_include (flag : writer.entry.text = "-I") (dotted : token.toList.head? = some '.') :
    writer.push (.token token) =
      ({ writer with
          entry := ⟨"-I" ++ (writer.base.resolve (.ofText token)).lossyText,
            writer.entry.tokens + 1, true⟩ },
        pathWarnings (writer.base.resolve (.ofText token)), .ok ()) := by
  rw [← events_add_of_resolves flag dotted, ← Entry.add_of_resolves flag dotted]
  rfl

end Writer

/-- The text that is written for a path is the path that has been made text first. -/
theorem text?_resolve_lossyText (base : Path) (token : String) :
    ((Path.ofText base.lossyText).resolve (.ofText token)).text? =
      some (base.resolve (.ofText token)).lossyText := by
  rw [Path.resolve_lossyText, Path.mended, Path.text?, Path.ofText, Utf8.decode?_encode]

theorem pathWarnings_cases (path : Path) :
    path.HasBrokenName ∧ pathWarnings path = [.includeNotText path path.lossyText] ∨
      ¬path.HasBrokenName ∧ pathWarnings path = [] := by
  by_cases broken : path.HasBrokenName
  · exact .inl ⟨broken, if_pos (Path.text?_eq_none_iff.mpr broken)⟩
  · exact .inr ⟨broken, if_neg (mt Path.text?_eq_none_iff.mp broken)⟩

/-- Documents are text. -/
theorem exists_document (base : Path) (items : List Item) :
    ∃ document, (render base items).result = .ok document ∧
      (write base items .unlimited).sink.written = Utf8.encode document := by
  have rendered := result_render_groups base (Item.ended items) (Item.unended items)
  have written :=
    (@write_groups base .unlimited rfl (Item.ended items) (Item.unended items)).1
  rw [Item.ofGroups_ended] at rendered written
  exact ⟨_, rendered, written⟩

/-- **What is no text in a base is replaced and nothing else.** When a token that begins with a dot
comes after the flag of an include, what is put after the flag is the token resolved against the
base as it is shown, a path with the components of the one that is resolved against the base as it
is, each shown by itself. It is said that the path is no text if one of these names is none, and
only then. All documents of the base are text. -/
theorem push_mended (writer : Writer) (token : String) (flag : writer.entry.text = "-I")
    (dotted : token.toList.head? = some '.') :
    ∃ text events,
      writer.push (.token token) =
          ({ writer with entry := ⟨"-I" ++ text, writer.entry.tokens + 1, true⟩ }, events,
            .ok ()) ∧
        ((Path.ofText writer.base.lossyText).resolve (.ofText token)).text? = some text ∧
        ((Path.ofText writer.base.lossyText).resolve (.ofText token)).components =
          (writer.base.resolve (.ofText token)).components.map Path.Component.mended ∧
        ((writer.base.resolve (.ofText token)).HasBrokenName ∧
            events = [.includeNotText (writer.base.resolve (.ofText token)) text] ∨
          ¬(writer.base.resolve (.ofText token)).HasBrokenName ∧ events = []) ∧
        ∀ items, ∃ document, (render writer.base items).result = .ok document ∧
          (write writer.base items .unlimited).sink.written = Utf8.encode document := by
  refine ⟨_, _, Writer.push_include flag dotted, text?_resolve_lossyText writer.base token, ?_,
    pathWarnings_cases _, exists_document writer.base⟩
  rw [Path.resolve_lossyText, Path.components_mended]

/-- A base with a name of four bytes that are none of them text, one whose last character has not
been finished, and one that is a single such byte. -/
def brokenBase : Path :=
  ⟨[Path.slash, 0xC0, 0xAE, 0xC0, 0xAE, Path.slash, 0x61, 0xE2, 0x82, Path.slash, 0xFF]⟩

/-- The last name is taken away. What is left is no text, but no name of it is taken for a parent,
and no separator is replaced. -/
theorem push_mended_broken :
    (Writer.mk brokenBase .unlimited ⟨"-I", 1, false⟩).push (.token "../inc") =
        (⟨brokenBase, .unlimited, ⟨"-I/\uFFFD\uFFFD\uFFFD\uFFFD/a\uFFFD/inc", 2, true⟩⟩,
          [.includeNotText (brokenBase.resolve (.ofText "../inc"))
            "/\uFFFD\uFFFD\uFFFD\uFFFD/a\uFFFD/inc"], .ok ()) ∧
      (Writer.mk brokenName .unlimited ⟨"-I", 1, false⟩).push (.token "../x") =
        (⟨brokenName, .unlimited, ⟨"-I/x", 2, true⟩⟩, [], .ok ()) := by
  constructor
  · obtain ⟨text, events, pushed, shown, -, said, -⟩ :=
      push_mended ⟨brokenBase, .unlimited, ⟨"-I", 1, false⟩⟩ "../inc" rfl (by decide)
    have textIs : text = "/\uFFFD\uFFFD\uFFFD\uFFFD/a\uFFFD/inc" := by
      refine Option.some.inj (shown.symm.trans ?_)
      cbv
    have broken : (brokenBase.resolve (.ofText "../inc")).HasBrokenName :=
      Path.text?_eq_none_iff.mp (by cbv)
    obtain ⟨-, warned⟩ := said.resolve_right fun fine => fine.1 broken
    rw [pushed, warned, textIs]
    rfl
  · obtain ⟨text, events, pushed, shown, -, said, -⟩ :=
      push_mended ⟨brokenName, .unlimited, ⟨"-I", 1, false⟩⟩ "../x" rfl (by decide)
    have textIs : text = "/x" := by
      refine Option.some.inj (shown.symm.trans ?_)
      cbv
    have fine : ¬(brokenName.resolve (.ofText "../x")).HasBrokenName := by
      rw [← Path.text?_eq_none_iff]
      have isText : (brokenName.resolve (.ofText "../x")).text? = some "/x" := by cbv
      simp [isText]
    obtain ⟨-, silent⟩ := said.resolve_left fun broken => fine broken.1
    rw [pushed, silent, textIs]
    rfl

end EditorFlags.Clangd
