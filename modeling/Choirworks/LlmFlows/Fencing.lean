import Choirworks.Library.Text

/-!
The fence of the new package around what another agent said.
-/

namespace Choirworks.LlmFlows

def quotedContentBegin : String := "<<<BEGIN_QUOTED_AGENT_CONTENT>>>"

def quotedContentEnd : String := "<<<END_QUOTED_AGENT_CONTENT>>>"

def quotedContentElided : String := "<<<ELIDED_MARKER>>>"

def elideQuoteMarkers (text : String) : String :=
  Text.replace quotedContentEnd quotedContentElided
    (Text.replace quotedContentBegin quotedContentElided text)

def quoteUntrusted (text : String) : String :=
  quotedContentBegin ++ "\n" ++ elideQuoteMarkers text ++ "\n" ++ quotedContentEnd

end Choirworks.LlmFlows
