import Stencil.Engine
import Stencil.Text.Quoted
/-!
# Descriptions

One line texts that show what an engine or a template holds, for people who look for a mistake.
-/

namespace Stencil.Inspect

/-! ## Building blocks -/

def separated (items : List String) : String := ", ".intercalate items

def list (items : List String) : String := "[" ++ separated items ++ "]"

def braced (items : List String) : String := "\x7b" ++ separated items ++ "\x7d"

/-- A record with a name. Records that do not show all of their fields end in two dots. -/
def record (name : String) (fields : List (String × String)) (whole : Bool) : String :=
  let shown := fields.map fun (label, text) => label ++ ": " ++ text
  let dots := if whole then [] else [".."]
  name ++ " \x7b " ++ separated (shown ++ dots) ++ " \x7d"

def bool (b : Bool) : String := if b then "true" else "false"

def quotedList (items : List String) : String := list (items.map Quoted.text)

/-! ## Markup -/

def tagKind : TagKind → String
  | .expr => "Expr"
  | .block => "Block"
  | .comment => "Comment"
  | .line => "Line"

def opener (o : Opener) : String :=
  "(" ++ tagKind o.kind ++ ", " ++ Quoted.text (String.ofList o.mark) ++ ")"

def closing (p : Option MarkPair) : String := Quoted.text ((p.map (·.closing)).getD "")

def pathStyle : PathStyle → String
  | .dots => "Dot"
  | .slashes => "Pointer"

def markup (m : Markup) : String :=
  record "Syntax"
    [("openers", list (m.openers.map opener)), ("expr_close", closing m.expr),
      ("block_close", closing m.block), ("comment_close", closing m.comment),
      ("trim_blocks", bool m.trimBlocks), ("lstrip_blocks", bool m.stripBlocks),
      ("notation", pathStyle m.paths)] true

/-! ## Callbacks -/

def arity : Arity → String
  | .fixed n => s!"Exact({n})"
  | .variadic => "Variadic"

def registry (r : Registry) : String :=
  braced (r.map fun (name, o) => Quoted.text name ++ ": " ++ list (o.arities.map arity))

/-! ## Templates and engines -/

def content (t : Template) : String :=
  record "Template"
    [("instrs", toString t.page.code.size), ("includes", quotedList t.includes.keys)] false

def template (name : Option String) (t : Template) : String :=
  let name := match name with
    | some name => "Some(" ++ Quoted.text name ++ ")"
    | none => "None"
  record "Template" [("name", name), ("template", content t)] false

def registered (name : String) (t : Template) : String :=
  record "TemplateRef" [("name", Quoted.text name), ("template", content t)] false

def engine (e : Engine) : String :=
  record "Engine"
    [("syntax", markup e.markup), ("functions", registry e.functions),
      ("max_include_depth", toString e.maxDepth), ("has_loader", bool e.loader.isSome),
      ("templates", quotedList e.templates.keys)] true

end Stencil.Inspect
