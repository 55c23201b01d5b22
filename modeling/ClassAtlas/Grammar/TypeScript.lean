import ClassAtlas.Grammar.JavaScript
/-!
# The TypeScript grammars

TypeScript extends the JavaScript grammar with types, signatures, ambient declarations and
modifiers. It has two dialects: `typescript` reads `<T>e` as a type assertion, `tsx` reads it as the
start of a JSX element. These are the other two languages of `get_language`.
-/
namespace ClassAtlas.Grammar.TypeScript

open Rule JavaScript

/-- Which reading `<` has at the start of an expression. -/
inductive Dialect where
  | assertions
  | jsx
deriving BEq, DecidableEq, Inhabited

/-- An optional step that carries a field. -/
def fieldOpt (name : String) (r : Rule) : Rule := .field name (optional r)

def accessors : Rule := optional (.choice ["get", "set", "*"])

/-- Options of a choice. -/
def options : Rule → List Rule
  | .choice rs => rs
  | r => [r]

def base : List (String × Rule) := statements ++ expressions ++ members

def baseRule (name : String) : Rule := (base.lookup name).getD .blank

def expression (dialect : Dialect) : Rule :=
  let added := [sym "as_expression", sym "satisfies_expression", sym "instantiation_expression",
    sym "internal_module"]
  let inherited := options (baseRule "expression")
  .choice (match dialect with
    | .assertions =>
      added ++ [sym "type_assertion"] ++ inherited.filter fun r => !(r == sym "_jsx_element")
    | .jsx => added ++ inherited)

/-- Names of the operands of a type query. -/
def queryObjects : Rule := .choice [
  sym "identifier", sym "this",
  as "subscript_expression" (sym "_type_query_subscript_expression"),
  as "member_expression" (sym "_type_query_member_expression"),
  as "call_expression" (sym "_type_query_call_expression")]

def queryFunctions : Rule := .choice [
  sym "import", sym "identifier",
  as "member_expression" (sym "_type_query_member_expression"),
  as "subscript_expression" (sym "_type_query_subscript_expression")]

def propertyName : Rule :=
  .choice [sym "private_property_identifier", as "property_identifier" (sym "identifier")]

/-- Rules of expressions, statements and classes that differ from those of JavaScript, and the
rules they need. -/
def declarations (dialect : Dialect) : List (String × Rule) := [
  entry "public_field_definition" (.seq [
    many (.field "decorator" (sym "decorator")),
    optional (.choice [
      .seq ["declare", optional (sym "accessibility_modifier")],
      .seq [sym "accessibility_modifier", optional "declare"]]),
    .choice [
      .seq [optional "static", optional (sym "override_modifier"), optional "readonly"],
      .seq [optional "abstract", optional "readonly"],
      .seq [optional "readonly", optional "abstract"],
      optional "accessor"],
    .field "name" (sym "_property_name"),
    optional (.choice ["?", "!"]),
    fieldOpt "type" (sym "type_annotation"),
    optional (sym "_initializer")]),
  entry "catch_clause" (.seq ["catch",
    optional (.seq ["(",
      .field "parameter" (.choice [sym "identifier", sym "_destructuring_pattern"]),
      optional (.field "type" (sym "type_annotation")), ")"]),
    .field "body" (sym "statement_block")]),
  entry "call_expression" (.choice [
    level "call" (.seq [
      .field "function" (.choice [sym "expression", sym "import"]),
      fieldOpt "type_arguments" (sym "type_arguments"),
      .field "arguments" (sym "arguments")]),
    level "template_call" (.seq [
      .field "function" (.choice [sym "primary_expression", sym "new_expression"]),
      .field "arguments" (sym "template_string")]),
    level "member" (.seq [
      .field "function" (sym "primary_expression"),
      "?.",
      fieldOpt "type_arguments" (sym "type_arguments"),
      .field "arguments" (sym "arguments")])]),
  entry "new_expression" (right "new" (.seq ["new",
    .field "constructor" (sym "primary_expression"),
    fieldOpt "type_arguments" (sym "type_arguments"),
    fieldOpt "arguments" (sym "arguments")])),
  entry "assignment_expression" (right "assign" (.seq [
    optional "using",
    .field "left" (.choice [sym "parenthesized_expression", sym "_lhs_expression"]),
    "=",
    .field "right" (sym "expression")])),
  entry "_augmented_assignment_lhs" (
    .choice [baseRule "_augmented_assignment_lhs", sym "non_null_expression"]),
  entry "_lhs_expression" (.choice [baseRule "_lhs_expression", sym "non_null_expression"]),
  entry "primary_expression" (
    .choice [baseRule "primary_expression", sym "non_null_expression"]),
  entry "expression" (expression dialect),
  entry "_jsx_start_opening_element" (.seq ["<",
    optional (.seq [
      .choice [
        .field "name" (.choice [sym "_jsx_identifier", sym "jsx_namespace_name"]),
        .seq [
          .field "name" (.choice [
            sym "identifier", as "member_expression" (sym "nested_identifier")]),
          fieldOpt "type_arguments" (sym "type_arguments")]],
      many (.field "attribute" (sym "_jsx_attribute"))])]),
  entry "jsx_opening_element" (.dynamic (-1) (.seq [sym "_jsx_start_opening_element", ">"])),
  entry "jsx_self_closing_element" (.dynamic (-1) (.seq [sym "_jsx_start_opening_element", "/>"])),
  entry "export_specifier" (.seq [
    optional (.choice ["type", "typeof"]), baseRule "export_specifier"]),
  entry "_import_identifier" (.choice [sym "identifier", as "identifier" "type"]),
  entry "import_specifier" (.seq [
    optional (.choice ["type", "typeof"]),
    .choice [
      .field "name" (sym "_import_identifier"),
      .seq [
        .field "name" (.choice [sym "_module_export_name", as "identifier" "type"]),
        "as",
        .field "alias" (sym "_import_identifier")]]]),
  entry "import_clause" (.choice [
    sym "namespace_import", sym "named_imports",
    .seq [sym "_import_identifier",
      optional (.seq [",", .choice [sym "namespace_import", sym "named_imports"]])]]),
  entry "import_statement" (.seq ["import",
    optional (.choice ["type", "typeof"]),
    .choice [
      .seq [sym "import_clause", sym "_from_clause"],
      sym "import_require_clause",
      .field "source" (sym "string")],
    optional (sym "import_attribute"),
    sym "_semicolon"]),
  entry "export_statement" (.choice [
    baseRule "export_statement",
    .seq ["export", "type", sym "export_clause", optional (sym "_from_clause"),
      sym "_semicolon"],
    .seq ["export", "import", sym "import_alias"],
    .seq ["export", "=", sym "expression", sym "_semicolon"],
    .seq ["export", "as", "namespace", sym "identifier", sym "_semicolon"]]),
  entry "non_null_expression" (left "unary" (.seq [sym "expression", "!"])),
  entry "variable_declarator" (.choice [
    .seq [
      .field "name" (.choice [sym "identifier", sym "_destructuring_pattern"]),
      fieldOpt "type" (sym "type_annotation"),
      optional (sym "_initializer")],
    level "declaration" (.seq [
      .field "name" (sym "identifier"), "!", .field "type" (sym "type_annotation")])]),
  entry "method_signature" (.seq [
    optional (sym "accessibility_modifier"), optional "static",
    optional (sym "override_modifier"), optional "readonly", optional "async", accessors,
    .field "name" (sym "_property_name"), optional "?", sym "_call_signature"]),
  entry "abstract_method_signature" (.seq [
    optional (sym "accessibility_modifier"), "abstract", optional (sym "override_modifier"),
    accessors, .field "name" (sym "_property_name"), optional "?", sym "_call_signature"]),
  entry "parenthesized_expression" (.seq ["(",
    .choice [
      .seq [sym "expression", fieldOpt "type" (sym "type_annotation")],
      sym "sequence_expression"],
    ")"]),
  entry "_formal_parameter" (.choice [sym "required_parameter", sym "optional_parameter"]),
  entry "function_signature" (.seq [
    optional "async", "function", .field "name" (sym "identifier"), sym "_call_signature",
    .choice [sym "_semicolon", sym "_function_signature_automatic_semicolon"]]),
  entry "decorator" (.seq ["@",
    .choice [
      sym "identifier",
      as "member_expression" (sym "decorator_member_expression"),
      as "call_expression" (sym "decorator_call_expression"),
      as "parenthesized_expression" (sym "decorator_parenthesized_expression")]]),
  entry "decorator_call_expression" (level "call" (.seq [
    .field "function" (.choice [
      sym "identifier", as "member_expression" (sym "decorator_member_expression")]),
    optional (.field "type_arguments" (sym "type_arguments")),
    .field "arguments" (sym "arguments")])),
  entry "decorator_parenthesized_expression" (.seq ["(",
    .choice [
      sym "identifier",
      as "member_expression" (sym "decorator_member_expression"),
      as "call_expression" (sym "decorator_call_expression")],
    ")"]),
  entry "class_body" (.seq [lbrace,
    many (.choice [
      .seq [many (.field "decorator" (sym "decorator")), sym "method_definition",
        optional (sym "_semicolon")],
      .seq [sym "method_signature",
        .choice [sym "_function_signature_automatic_semicolon", ","]],
      sym "class_static_block",
      .seq [
        .choice [
          sym "abstract_method_signature", sym "index_signature", sym "method_signature",
          sym "public_field_definition"],
        .choice [sym "_semicolon", ","]],
      ";"]),
    rbrace]),
  entry "method_definition" (leftAssoc (.seq [
    optional (sym "accessibility_modifier"), optional "static",
    optional (sym "override_modifier"), optional "readonly", optional "async", accessors,
    .field "name" (sym "_property_name"), optional "?", sym "_call_signature",
    .field "body" (sym "statement_block")])),
  entry "declaration" (.choice [
    baseRule "declaration",
    sym "function_signature", sym "abstract_class_declaration", sym "module",
    level "declaration" (sym "internal_module"),
    sym "type_alias_declaration", sym "enum_declaration", sym "interface_declaration",
    sym "import_alias", sym "ambient_declaration"]),
  entry "type_assertion" (left "unary" (.seq [sym "type_arguments", sym "expression"])),
  entry "as_expression" (left "binary" (.seq [
    sym "expression", "as", .choice ["const", sym "type"]])),
  entry "satisfies_expression" (left "binary" (.seq [sym "expression", "satisfies", sym "type"])),
  entry "instantiation_expression" (level "instantiation" (.seq [
    sym "expression", .field "type_arguments" (sym "type_arguments")])),
  entry "class_heritage" (.choice [
    .seq [sym "extends_clause", optional (sym "implements_clause")],
    sym "implements_clause"]),
  entry "import_require_clause" (.seq [
    sym "identifier", "=", "require", "(", .field "source" (sym "string"), ")"]),
  entry "extends_clause" (.seq ["extends", commaSep1 (sym "_extends_clause_single")]),
  entry "_extends_clause_single" (level "extends" (.seq [
    .field "value" (sym "expression"),
    fieldOpt "type_arguments" (sym "type_arguments")])),
  entry "implements_clause" (.seq ["implements", commaSep1 (sym "type")]),
  entry "ambient_declaration" (.seq ["declare",
    .choice [
      sym "declaration",
      .seq ["global", sym "statement_block"],
      .seq ["module", ".", as "property_identifier" (sym "identifier"), ":", sym "type",
        sym "_semicolon"]]]),
  entry "class" (level "literal" (.seq [
    many (.field "decorator" (sym "decorator")),
    "class",
    fieldOpt "name" (sym "_type_identifier"),
    fieldOpt "type_parameters" (sym "type_parameters"),
    optional (sym "class_heritage"),
    .field "body" (sym "class_body")])),
  entry "abstract_class_declaration" (level "declaration" (.seq [
    many (.field "decorator" (sym "decorator")),
    "abstract", "class",
    .field "name" (sym "_type_identifier"),
    fieldOpt "type_parameters" (sym "type_parameters"),
    optional (sym "class_heritage"),
    .field "body" (sym "class_body")])),
  entry "class_declaration" (left "declaration" (.seq [
    many (.field "decorator" (sym "decorator")),
    "class",
    .field "name" (sym "_type_identifier"),
    fieldOpt "type_parameters" (sym "type_parameters"),
    optional (sym "class_heritage"),
    .field "body" (sym "class_body"),
    optional (sym "_automatic_semicolon")])),
  entry "module" (.seq ["module", sym "_module"]),
  entry "internal_module" (.seq ["namespace", sym "_module"]),
  entry "_module" (rightAssoc (.seq [
    .field "name" (.choice [sym "string", sym "identifier", sym "nested_identifier"]),
    fieldOpt "body" (sym "statement_block")])),
  entry "import_alias" (.seq ["import", sym "identifier", "=",
    .choice [sym "identifier", sym "nested_identifier"], sym "_semicolon"]),
  entry "nested_type_identifier" (level "member" (.seq [
    .field "module" (.choice [sym "identifier", sym "nested_identifier"]),
    ".",
    .field "name" (sym "_type_identifier")])),
  entry "interface_declaration" (.seq ["interface",
    .field "name" (sym "_type_identifier"),
    fieldOpt "type_parameters" (sym "type_parameters"),
    optional (sym "extends_type_clause"),
    .field "body" (as "interface_body" (sym "object_type"))]),
  entry "extends_type_clause" (.seq ["extends",
    commaSep1 (.field "type" (.choice [
      sym "_type_identifier", sym "nested_type_identifier", sym "generic_type"]))]),
  entry "enum_declaration" (.seq [
    optional "const", "enum", .field "name" (sym "identifier"),
    .field "body" (sym "enum_body")]),
  entry "enum_body" (.seq [lbrace,
    optional (.seq [
      sepBy1 "," (.choice [.field "name" (sym "_property_name"), sym "enum_assignment"]),
      optional ","]),
    rbrace]),
  entry "enum_assignment" (.seq [.field "name" (sym "_property_name"), sym "_initializer"]),
  entry "type_alias_declaration" (.seq ["type",
    .field "name" (sym "_type_identifier"),
    fieldOpt "type_parameters" (sym "type_parameters"),
    "=",
    .field "value" (sym "type"),
    sym "_semicolon"]),
  entry "accessibility_modifier" (.choice ["public", "private", "protected"]),
  entry "override_modifier" "override",
  entry "required_parameter" (.seq [
    sym "_parameter_name", fieldOpt "type" (sym "type_annotation"),
    optional (sym "_initializer")]),
  entry "optional_parameter" (.seq [
    sym "_parameter_name", "?", fieldOpt "type" (sym "type_annotation"),
    optional (sym "_initializer")]),
  entry "_parameter_name" (.seq [
    many (.field "decorator" (sym "decorator")),
    optional (sym "accessibility_modifier"), optional (sym "override_modifier"),
    optional "readonly",
    .field "pattern" (.choice [sym "pattern", sym "this"])])]

/-- Rules of types and of the members of interfaces. -/
def types : List (String × Rule) := [
  entry "omitting_type_annotation" (.seq ["-?:", sym "type"]),
  entry "adding_type_annotation" (.seq ["+?:", sym "type"]),
  entry "opting_type_annotation" (.seq ["?:", sym "type"]),
  entry "type_annotation" (.seq [":",
    .choice [
      sym "type",
      as "member_expression" (sym "_type_query_member_expression_in_type_annotation"),
      as "call_expression" (sym "_type_query_call_expression_in_type_annotation")]]),
  entry "_type_query_member_expression_in_type_annotation" (.seq [
    .field "object" (.choice [
      sym "import",
      as "member_expression" (sym "_type_query_member_expression_in_type_annotation"),
      as "call_expression" (sym "_type_query_call_expression_in_type_annotation")]),
    ".",
    .field "property" propertyName]),
  entry "_type_query_call_expression_in_type_annotation" (.seq [
    .field "function" (.choice [
      sym "import",
      as "member_expression" (sym "_type_query_member_expression_in_type_annotation")]),
    .field "arguments" (sym "arguments")]),
  entry "asserts" (.seq ["asserts", .choice [sym "type_predicate", sym "identifier", sym "this"]]),
  entry "asserts_annotation" (.seq [":", sym "asserts"]),
  entry "type" (.choice [
    sym "primary_type", sym "function_type", sym "readonly_type", sym "constructor_type",
    sym "infer_type",
    .prec (.level (-1)) none
      (as "member_expression" (sym "_type_query_member_expression_in_type_annotation")),
    .prec (.level (-1)) none
      (as "call_expression" (sym "_type_query_call_expression_in_type_annotation"))]),
  entry "tuple_parameter" (.seq [
    .field "name" (.choice [sym "identifier", sym "rest_pattern"]),
    .field "type" (sym "type_annotation")]),
  entry "optional_tuple_parameter" (.seq [
    .field "name" (sym "identifier"), "?", .field "type" (sym "type_annotation")]),
  entry "optional_type" (.seq [sym "type", "?"]),
  entry "rest_type" (.seq ["...", sym "type"]),
  entry "_tuple_type_member" (.choice [
    as "required_parameter" (sym "tuple_parameter"),
    as "optional_parameter" (sym "optional_tuple_parameter"),
    sym "optional_type", sym "rest_type", sym "type"]),
  entry "constructor_type" (leftAssoc (.seq [
    optional "abstract", "new",
    fieldOpt "type_parameters" (sym "type_parameters"),
    .field "parameters" (sym "formal_parameters"),
    "=>",
    .field "type" (sym "type")])),
  entry "primary_type" (.choice [
    sym "parenthesized_type", sym "predefined_type", sym "_type_identifier",
    sym "nested_type_identifier", sym "generic_type", sym "object_type", sym "array_type",
    sym "tuple_type", sym "flow_maybe_type", sym "type_query", sym "index_type_query",
    as "this_type" (sym "this"), sym "existential_type", sym "literal_type", sym "lookup_type",
    sym "conditional_type", sym "template_literal_type", sym "intersection_type",
    sym "union_type", "const"]),
  entry "template_type" (.seq ["$\x7b", .choice [sym "primary_type", sym "infer_type"], rbrace]),
  entry "template_literal_type" (.seq ["`",
    many (.choice [as "string_fragment" (sym "_template_chars"), sym "template_type"]), "`"]),
  entry "infer_type" (rightAssoc (.seq ["infer", sym "_type_identifier",
    optional (.seq ["extends", sym "type"])])),
  entry "conditional_type" (rightAssoc (.seq [
    .field "left" (sym "type"), "extends", .field "right" (sym "type"), "?",
    .field "consequence" (sym "type"), ":", .field "alternative" (sym "type")])),
  entry "generic_type" (level "call" (.seq [
    .field "name" (.choice [sym "_type_identifier", sym "nested_type_identifier"]),
    .field "type_arguments" (sym "type_arguments")])),
  entry "type_predicate" (.seq [
    .field "name" (.choice [
      sym "identifier", sym "this", as "identifier" (sym "predefined_type")]),
    "is",
    .field "type" (sym "type")]),
  entry "type_predicate_annotation" (.seq [":", sym "type_predicate"]),
  entry "_type_query_member_expression" (.seq [
    .field "object" queryObjects, .choice [".", "?."], .field "property" propertyName]),
  entry "_type_query_subscript_expression" (.seq [
    .field "object" queryObjects, optional "?.", "[",
    .field "index" (.choice [sym "predefined_type", sym "string", sym "number"]), "]"]),
  entry "_type_query_call_expression" (.seq [
    .field "function" queryFunctions, .field "arguments" (sym "arguments")]),
  entry "_type_query_instantiation_expression" (.seq [
    .field "function" queryFunctions, .field "type_arguments" (sym "type_arguments")]),
  entry "type_query" (rightAssoc (.seq ["typeof",
    .choice [
      as "subscript_expression" (sym "_type_query_subscript_expression"),
      as "member_expression" (sym "_type_query_member_expression"),
      as "call_expression" (sym "_type_query_call_expression"),
      as "instantiation_expression" (sym "_type_query_instantiation_expression"),
      sym "identifier", sym "this"]])),
  entry "index_type_query" (.seq ["keyof", sym "primary_type"]),
  entry "lookup_type" (.seq [sym "primary_type", "[", sym "type", "]"]),
  entry "mapped_type_clause" (.seq [
    .field "name" (sym "_type_identifier"), "in", .field "type" (sym "type"),
    optional (.seq ["as", .field "alias" (sym "type")])]),
  entry "literal_type" (.choice [
    as "unary_expression" (sym "_number"), sym "number", sym "string", sym "true",
    sym "false", sym "null", sym "undefined"]),
  entry "_number" (.prec (.level 1) (some .left) (.seq [
    .field "operator" (.choice ["-", "+"]), .field "argument" (sym "number")])),
  entry "existential_type" "*",
  entry "flow_maybe_type" (rightAssoc (.seq ["?", sym "primary_type"])),
  entry "parenthesized_type" (.seq ["(", sym "type", ")"]),
  entry "predefined_type" (.choice [
    "any", "number", "boolean", "string", "symbol",
    .shownAs ⟨"unique symbol", false⟩ (.seq ["unique", "symbol"]),
    "void", "unknown", "never", "object"]),
  entry "type_arguments" (.seq ["<", commaSep1 (sym "type"), optional ",", ">"]),
  entry "object_type" (.seq [
    .choice [lbrace, "\x7b|"],
    optional (.seq [
      optional (.choice [",", ";"]),
      sepBy1 (.choice [",", sym "_semicolon"]) (.choice [
        sym "export_statement", sym "property_signature", sym "call_signature",
        sym "construct_signature", sym "index_signature", sym "method_signature"]),
      optional (.choice [",", sym "_semicolon"])]),
    .choice [rbrace, "|\x7d"]]),
  entry "call_signature" (sym "_call_signature"),
  entry "property_signature" (.seq [
    optional (sym "accessibility_modifier"), optional "static",
    optional (sym "override_modifier"), optional "readonly",
    .field "name" (sym "_property_name"), optional "?",
    fieldOpt "type" (sym "type_annotation")]),
  entry "_call_signature" (.seq [
    fieldOpt "type_parameters" (sym "type_parameters"),
    .field "parameters" (sym "formal_parameters"),
    fieldOpt "return_type" (.choice [
      sym "type_annotation", sym "asserts_annotation", sym "type_predicate_annotation"])]),
  entry "type_parameters" (.seq ["<", commaSep1 (sym "type_parameter"), optional ",", ">"]),
  entry "type_parameter" (.seq [
    optional "const",
    .field "name" (sym "_type_identifier"),
    fieldOpt "constraint" (sym "constraint"),
    fieldOpt "value" (sym "default_type")]),
  entry "default_type" (.seq ["=", sym "type"]),
  entry "constraint" (.seq [.choice ["extends", ":"], sym "type"]),
  entry "construct_signature" (.seq [
    optional "abstract", "new",
    fieldOpt "type_parameters" (sym "type_parameters"),
    .field "parameters" (sym "formal_parameters"),
    fieldOpt "type" (sym "type_annotation")]),
  entry "index_signature" (.seq [
    optional (.seq [.field "sign" (optional (.choice ["-", "+"])), "readonly"]),
    "[",
    .choice [
      .seq [
        .field "name" (.choice [
          sym "identifier", as "identifier" (sym "_reserved_identifier")]),
        ":",
        .field "index_type" (sym "type")],
      sym "mapped_type_clause"],
    "]",
    .field "type" (.choice [
      sym "type_annotation", sym "omitting_type_annotation", sym "adding_type_annotation",
      sym "opting_type_annotation"])]),
  entry "array_type" (.seq [sym "primary_type", "[", "]"]),
  entry "tuple_type" (.seq ["[", commaSep (sym "_tuple_type_member"), optional ",", "]"]),
  entry "readonly_type" (.seq ["readonly", sym "type"]),
  entry "union_type" (leftAssoc (.seq [optional (sym "type"), "|", sym "type"])),
  entry "intersection_type" (leftAssoc (.seq [optional (sym "type"), "&", sym "type"])),
  entry "function_type" (leftAssoc (.seq [
    fieldOpt "type_parameters" (sym "type_parameters"),
    .field "parameters" (sym "formal_parameters"),
    "=>",
    .field "return_type" (.choice [sym "type", sym "asserts", sym "type_predicate"])])),
  entry "_type_identifier" (as "type_identifier" (sym "identifier")),
  entry "_reserved_identifier" (.choice [
    "declare", "namespace", "type", "public", "private", "protected", "override", "readonly",
    "module", "any", "number", "boolean", "string", "symbol", "export", "object", "new",
    "readonly", baseRule "_reserved_identifier"])]

def orderings : List (List Rank) := [
  [.level "call", .level "instantiation", .level "unary", .level "binary",
   .rule "await_expression", .rule "arrow_function"],
  [.level "extends", .level "instantiation"],
  [.rule "intersection_type", .rule "union_type", .rule "conditional_type",
   .rule "function_type", .level "binary", .rule "type_predicate", .rule "readonly_type"],
  [.rule "mapped_type_clause", .rule "primary_expression"],
  [.rule "accessibility_modifier", .rule "primary_expression"],
  [.level "unary_void", .rule "expression"],
  [.rule "extends_clause", .rule "primary_expression"],
  [.level "unary", .level "assign"],
  [.level "declaration", .rule "expression"],
  [.rule "predefined_type", .rule "unary_expression"],
  [.rule "type", .rule "flow_maybe_type"],
  [.rule "tuple_type", .rule "array_type", .rule "pattern", .rule "type"],
  [.rule "readonly_type", .rule "pattern"],
  [.rule "readonly_type", .rule "primary_expression"],
  [.rule "type_query", .rule "subscript_expression", .rule "expression"],
  [.rule "type_query", .rule "_type_query_subscript_expression"],
  [.rule "nested_type_identifier", .rule "generic_type", .rule "primary_type",
   .rule "lookup_type", .rule "index_type_query", .rule "type"],
  [.rule "as_expression", .rule "satisfies_expression", .rule "primary_type"],
  [.rule "_type_query_member_expression", .rule "member_expression"],
  [.rule "member_expression", .rule "_type_query_member_expression_in_type_annotation"],
  [.rule "_type_query_member_expression", .rule "primary_expression"],
  [.rule "_type_query_subscript_expression", .rule "subscript_expression"],
  [.rule "_type_query_subscript_expression", .rule "primary_expression"],
  [.rule "_type_query_call_expression", .rule "primary_expression"],
  [.rule "_type_query_instantiation_expression", .rule "primary_expression"],
  [.rule "type_query", .rule "primary_expression"],
  [.rule "override_modifier", .rule "primary_expression"],
  [.rule "decorator_call_expression", .rule "decorator"],
  [.rule "literal_type", .rule "pattern"],
  [.rule "predefined_type", .rule "pattern"],
  [.rule "call_expression", .rule "_type_query_call_expression"],
  [.rule "call_expression", .rule "_type_query_call_expression_in_type_annotation"],
  [.rule "new_expression", .rule "primary_expression"],
  [.rule "meta_property", .rule "primary_expression"],
  [.rule "construct_signature", .rule "_property_name"]]

def grammar (dialect : Dialect) : RuleSet where
  name := match dialect with
    | .assertions => "typescript"
    | .jsx => "tsx"
  rules := RuleSet.override base (declarations dialect ++ types)
  extras := javaScript.extras
  blanks := JavaScript.blanks
  externals := JavaScript.externals ++
    [sym "_function_signature_automatic_semicolon", sym "__error_recovery"]
  inlined := JavaScript.inlined.filter (fun r => r != "_formal_parameter" && r != "_call_signature")
    ++ ["_type_identifier", "_jsx_start_opening_element"]
  supertypes := JavaScript.supertypes ++ ["type", "primary_type"]
  word := "identifier"
  orderings := JavaScript.orderings ++ orderings

end TypeScript

/-- The grammar of TypeScript sources without JSX. -/
def typeScript : RuleSet := TypeScript.grammar .assertions

/-- The grammar of TypeScript sources with JSX. -/
def tsx : RuleSet := TypeScript.grammar .jsx

end ClassAtlas.Grammar
