import HtmlStream.Machine.Comment
import HtmlStream.Machine.Doctype
import HtmlStream.Machine.Script
import HtmlStream.Machine.Tag

/-! # The end of the input

What each state does when its input is used up and no more will come. States that hold markup back as
possible text put it back; those inside a token report an error and queue or drop the token. Every
state but those of text moves to another one, so that the end itself is always queued from text. -/

namespace HtmlStream.Machine

/-- The end of the input inside a document type. -/
def endDoctype (m : Machine) : Machine :=
  (m.report .eofInDoctype).forceQuirks.emitDoctype

/-- The end of the input in the present state. -/
def stepEnd (m : Machine) : Machine :=
  match m.state with
  | .data | .plaintext | .rawData .rcdata | .rawData .rawtext | .rawData .scriptData => m.emitEnd
  | .rawData (.scriptDataEscaped _) | .scriptDataEscapedDash _ | .scriptDataEscapedDashDash _ =>
    (m.report .eofInScriptHtmlCommentLikeText).emitEnd
  | .rawLessThanSign (.scriptDataEscaped .doubleEscaped) =>
    m.goto (.rawData (.scriptDataEscaped .doubleEscaped))
  | .rawLessThanSign kind => (m.putChar '<').goto (.rawData kind)
  | .rawEndTagOpen kind => (m.putText "</").goto (.rawData kind)
  | .rawEndTagName kind => m.putBackEndTag kind
  | .scriptDataEscapeStart .escaped | .scriptDataEscapeStartDash => m.goto (.rawData .scriptData)
  | .scriptDataEscapeStart .doubleEscaped => m.goto (.rawData (.scriptDataEscaped .escaped))
  | .scriptDataDoubleEscapeEnd => m.goto (.rawData (.scriptDataEscaped .doubleEscaped))
  | .tagOpen => ((m.report .eofBeforeTagName).putChar '<').goto .data
  | .endTagOpen => ((m.report .eofBeforeTagName).putText "</").goto .data
  | .tagName | .beforeAttributeName | .attributeName | .afterAttributeName
  | .beforeAttributeValue | .attributeValue _ | .afterAttributeValueQuoted
  | .selfClosingStartTag =>
    (m.report .eofInTag).dropAttribute.goto .data
  | .markupDeclarationOpen =>
    ((m.report .incorrectlyOpenedComment).openComment "").goto .bogusComment
  | .bogusComment => m.emitComment
  | .commentStart | .commentStartDash | .comment | .commentEndDash | .commentEnd
  | .commentEndBang => (m.report .eofInComment).emitComment
  | .doctype | .beforeDoctypeName =>
    (m.report .eofInDoctype).resetDoctype.forceQuirks.emitDoctype
  | .bogusDoctype => m.emitDoctype
  | .doctypeName | .afterDoctypeName | .afterDoctypeKeyword _ | .beforeDoctypeIdentifier _
  | .doctypeIdentifierDoubleQuoted _ | .doctypeIdentifierSingleQuoted _
  | .afterDoctypeIdentifier _ | .betweenDoctypePublicAndSystemIdentifiers => m.endDoctype

end HtmlStream.Machine
