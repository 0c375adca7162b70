import RvConsole.Locale.NumberStyle
import RvConsole.Locale.Tag

/-! The number style of each language. -/
namespace RvConsole

namespace NumberStyle

def comma : NumberStyle := {}
def point : NumberStyle := { separator := "." }
def space : NumberStyle := { separator := "\u00a0" }
def apostrophe : NumberStyle := { separator := "\u2019" }
/-- Groups of two after the first, as in India. -/
def pairs : NumberStyle := { laterGroup := 2 }
/-- Spaces between groups and a true minus sign. -/
def nordic : NumberStyle := { separator := "\u00a0", minus := "\u2212" }
def arabic : NumberStyle := { separator := "\u066c", minus := "\u061c-", zero := 0x660 }
def persian : NumberStyle := { separator := "\u066c", minus := "\u200e\u2212", zero := 0x6F0 }

/-- Styles of a language in one region that differ from the language's own. -/
def regional : List (Text × Text × NumberStyle) := [
  ("de", "CH", apostrophe), ("de", "LI", apostrophe), ("de", "AT", space), ("en", "IN", pairs),
  ("en", "ZA", space), ("es", "MX", comma), ("es", "US", comma), ("es", "419", comma),
  ("pt", "PT", space), ("it", "CH", apostrophe)]

/-- Styles of languages that do not group with commas. -/
def byLanguage : List (NumberStyle × List Text) := [
  (point, ["de", "es", "pt", "it", "nl", "da", "ro", "tr", "el", "vi", "id", "ca", "gl", "is", "sr",
    "bs", "mk"]),
  (space, ["fr", "pl", "ru", "uk", "cs", "sk", "bg", "hu", "lv", "af", "be", "kk", "hy", "ka"]),
  (nordic, ["sv", "nb", "no", "nn", "fi", "et", "lt"]),
  ({ separator := ".", minus := "\u2212" }, ["sl", "hr", "eu", "fo"]),
  (apostrophe, ["gsw", "rm"]),
  (pairs, ["hi", "gu", "kn", "ml", "pa", "ta", "te", "or"]),
  ({ laterGroup := 2, zero := 0x9E6 }, ["bn", "as"]),
  ({ laterGroup := 2, zero := 0x966 }, ["mr"]),
  ({ zero := 0x966 }, ["ne"]),
  ({ minus := "\u200e-" }, ["he", "ur"]),
  (arabic, ["ar"]),
  (persian, ["fa"])]

/-- The style of a language tag: that of the region if it has one of its own, else the
language's. -/
def ofTag (tag : Tag) : NumberStyle :=
  match regional.find? fun entry => entry.1 == tag.language && some entry.2.1 == tag.region with
  | some entry => entry.2.2
  | none =>
    match byLanguage.find? fun entry => entry.2.contains tag.language with
    | some entry => entry.1
    | none => comma

end NumberStyle

end RvConsole
