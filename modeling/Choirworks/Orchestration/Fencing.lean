import Choirworks.Library.Fences
import Choirworks.LlmFlows.Fencing
import Choirworks.Orchestration.Prompts

/-!
Both packages fence quoted text with the same markers: no text can leave the
fence that is put around it.
-/

namespace Choirworks.Orchestration

open Text

/-- No marker overlaps with the word that takes its place, which is what keeps
a marker from coming together again. -/
def quotedContent : Fence where
  opening := quotedContentBegin
  closing := quotedContentEnd
  elided := quotedContentElided
  opens := by decide
  closes := by decide
  opening_apart := by decide +kernel
  closing_apart := by decide +kernel
  opening_line := by decide
  closing_line := by decide
  closing_alone := by decide +kernel
  opening_alone := by decide +kernel

theorem quote_fenced (text : String) : quoteUntrusted text = quotedContent.quote text := rfl

theorem quote_fenced_again (text : String) :
    LlmFlows.quoteUntrusted text = quotedContent.quote text := rfl

/-- In both copies each marker occurs once, at its end of the quoted text. -/
theorem quotes_stay_closed (text : String) :
    (OnceInFront quotedContentBegin.toList (quoteUntrusted text).toList ∧
      OnceAtEnd quotedContentEnd.toList (quoteUntrusted text).toList) ∧
    (OnceInFront LlmFlows.quotedContentBegin.toList (LlmFlows.quoteUntrusted text).toList ∧
      OnceAtEnd LlmFlows.quotedContentEnd.toList (LlmFlows.quoteUntrusted text).toList) := by
  rw [quote_fenced, quote_fenced_again]
  have opens := quotedContent.quote_opens text
  have closes := quotedContent.quote_closes text
  exact ⟨⟨opens, closes⟩, ⟨opens, closes⟩⟩

end Choirworks.Orchestration
