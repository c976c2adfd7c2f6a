import CorpusQuery.Json.Printer
import CorpusQuery.Query.Basic

/-! A query as a JSON document. -/

namespace CorpusQuery

def Expr.toJson : Expr → Json
  | .constraint name equality value =>
    .object [("type".toList, .text "attribute".toList), ("name".toList, .text name),
      ("operator".toList, .text equality.symbol), ("value".toList, .text value)]
  | .binary operator left right =>
    .object [("type".toList, .text "binaryOp".toList), ("operator".toList, .text operator.symbol),
      ("left".toList, left.toJson), ("right".toList, right.toJson)]

def XmlTag.toJson (t : XmlTag) : Json :=
  .object [("name".toList, .text t.name), ("isClosingTag".toList, .bool t.closing)]

def Repeats.toJson (r : Repeats) : Json :=
  .object [("min".toList, .nat r.min.toNat),
    ("max".toList, Json.orNull (fun max => .nat max.toNat) r.max)]

def Token.toJson (t : Token) : Json :=
  .object [("leadingXmlTag".toList, Json.orNull XmlTag.toJson t.leadingTag),
    ("trailingXmlTag".toList, Json.orNull XmlTag.toJson t.trailingTag),
    ("expression".toList, Json.orNull Expr.toJson t.expression),
    ("optional".toList, .bool t.optional),
    ("repeats".toList, Json.orNull Repeats.toJson t.repeats)]

def Query.toJson (q : Query) : Json :=
  .object [("tokens".toList, .array (q.tokens.map Token.toJson)),
    ("within".toList, Json.orNull Json.text q.within)]

end CorpusQuery
