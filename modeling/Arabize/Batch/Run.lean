import Arabize.Batch.Prepare
import Arabize.Batch.Render

/-! # Running a batch

A run prepares its vocabulary, then renders its files, documents before style sheets, and
reports what became of each.
-/

namespace Arabize.Batch

variable {σ : Type}

/-- Whether a path is that of a style sheet. -/
def isStylesheet (p : Path) : Bool := FileKind.ofPath p = .stylesheet

/-- Paths in the order in which their files are rendered: style sheets come last. -/
def order (paths : List Path) : List Path :=
  (paths.filter fun p => !isStylesheet p) ++ paths.filter isStylesheet

/-- Renders files under a prepared vocabulary; the outcomes and what is remembered then. -/
def renderAll [Script.Parser] (s : Settings) (mirror : Option Mirror) (words : Vocabulary)
    (paths : List Path) : Step σ (List Outcome × Phrase.Memory) := fun session =>
  match outcomes s mirror words paths ⟨session.disk, [], session.log⟩ with
  | (.ok outcomes, b) =>
    (.ok (outcomes, b.run.memory), { session with disk := b.disk, log := b.run.log })
  | (.error e, b) => (.error e, { session with disk := b.disk, log := b.run.log })

def run [Script.Parser] [Lexicon.Bundle] (s : Settings) (mirror : Option Mirror) (a : Assistant σ)
    (paths : List Path) : Step σ Report := do
  let prepared ← prepare s a paths
  inform ("Translating " ++ Text.ofNat (order paths).length ++ " file(s)...")
  let (outcomes, memory) ← renderAll s mirror prepared.vocabulary (order paths)
  let r : Report := ⟨outcomes, prepared.missing, prepared.fetched, memory.length⟩
  report (r.summaryLines.map fun line => ⟨.info, line⟩)
  return r

end Arabize.Batch
