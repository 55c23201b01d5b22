import ClassAtlas.Grammar.Rule
/-!
# The JavaScript grammar

Modules, classes, decorators and JSX. Where a construct cannot be told apart before its end (an
arrow function's parameters and a parenthesised expression, an object and a pattern), both readings
are derivable and the parser follows them side by side. This is one of the languages of
`get_language`.
-/
namespace ClassAtlas.Grammar.JavaScript

open Rule

/-- A reference to a rule. -/
def sym (name : String) : Rule := .ref name

/-- A rule under its name. -/
def entry (name : String) (r : Rule) : String × Rule := (name, r)

def lbrace : Rule := "\x7b"

def rbrace : Rule := "\x7d"

/-- Characters of `\s` in token patterns. -/
def space : CharSet := ⟨[(9, 13), (32, 32)]⟩

/-- Space separators. -/
def spaceSeparators : CharSet :=
  ⟨[(0x20, 0x20), (0xA0, 0xA0), (0x1680, 0x1680), (0x2000, 0x200A), (0x202F, 0x202F),
    (0x205F, 0x205F), (0x3000, 0x3000)]⟩

/-- Byte order mark, word joiner, zero width space, line and paragraph separators. -/
def invisible : CharSet :=
  ⟨[(0xFEFF, 0xFEFF), (0x2060, 0x2060), (0x200B, 0x200B), (0x2028, 0x2029)]⟩

/-- What may stand between tokens. -/
def blanks : CharSet := (space.union spaceSeparators).union invisible

def digits : CharSet := .range '0' '9'

def hexDigits : CharSet := (digits.union (.range 'a' 'f')).union (.range 'A' 'F')

def letters : CharSet := (CharSet.range 'a' 'z').union (.range 'A' 'Z')

/-- Characters that end an identifier. -/
def identifierEnd : CharSet :=
  (((CharSet.codes 0 0x1F).union blanks).union (.ofString ":;`\"'@#.,|^&<=>+-*/\\%?!~()[]\x7b\x7d"))

/-- A Unicode escape inside an identifier. -/
def identifierEscape : List Regex :=
  [.seq [.text "\\u", .times 4 4 (.set hexDigits)],
   .seq [.text "\\u\x7b", .plus (.set hexDigits), .text "\x7d"]]

def identifierStart : Regex :=
  .alt (.noneOf (identifierEnd.union digits) :: identifierEscape)

def identifierPart : Regex := .alt (.noneOf identifierEnd :: identifierEscape)

def identifierPattern : Regex := .seq [identifierStart, .star identifierPart]

/-- Digits of the set, single underscores allowed between them. -/
def grouped (d : CharSet) : Regex := .seq [.set d, .star (.seq [.opt (.text "_"), .set d])]

def hexLiteral : Regex := .seq [.alt [.text "0x", .text "0X"], grouped hexDigits]
def binaryLiteral : Regex := .seq [.alt [.text "0b", .text "0B"], grouped (.range '0' '1')]
def octalLiteral : Regex := .seq [.alt [.text "0o", .text "0O"], grouped (.range '0' '7')]
def decimalDigits : Regex := grouped digits

def exponent : Regex := .seq [.oneOf "eE", .opt (.oneOf "+-"), decimalDigits]

def decimalInteger : Regex :=
  .alt [.text "0",
    .seq [.opt (.text "0"), .set (.range '1' '9'), .opt (.seq [.opt (.text "_"), decimalDigits])]]

def decimalLiteral : Regex :=
  .alt [.seq [decimalInteger, .text ".", .opt decimalDigits, .opt exponent],
    .seq [.text ".", decimalDigits, .opt exponent],
    .seq [decimalInteger, exponent],
    decimalDigits]

def numberPattern : Regex :=
  .alt [hexLiteral, decimalLiteral, binaryLiteral, octalLiteral,
    .seq [.alt [hexLiteral, binaryLiteral, octalLiteral, decimalDigits], .text "n"]]

def commentPattern : Regex :=
  let notStar := Regex.noneOf (.single '*')
  .alt [.seq [.text "//", .star (.noneOf ((CharSet.ofString "\r\n").union (.codes 0x2028 0x2029)))],
    .seq [.text "/*", .star notStar, .plus (.text "*"),
      .star (.seq [.noneOf (.ofString "/*"), .star notStar, .plus (.text "*")]), .text "/"]]

def escapePattern : Regex :=
  .seq [.text "\\",
    .alt [.noneOf ((CharSet.ofString "xu").union (.range '0' '7')),
      .times 1 3 (.set (.range '0' '7')),
      .seq [.text "x", .times 2 2 (.set hexDigits)],
      .seq [.text "u", .times 4 4 (.set hexDigits)],
      .seq [.text "u\x7b", .plus (.set hexDigits), .text "\x7d"],
      .seq [.oneOf "\r?", .set ((CharSet.single '\n').union (.codes 0x2028 0x2029))]]]

def regexPattern : Regex :=
  let escaped := Regex.seq [.text "\\", .noneOf (.single '\n')]
  .plus (.alt [
    .seq [.text "[", .star (.alt [escaped, .noneOf (.ofString "]\n\\")]), .text "]"],
    escaped,
    .noneOf (.ofString "/\\[\n")])

def jsxIdentifierPattern : Regex :=
  let start := letters.union (.ofString "_$")
  let part := start.union digits
  .seq [.set start, .star (.set part), .text "-", .star (.set (part.union (.single '-')))]

def characterReferencePattern : Regex :=
  .seq [.text "&",
    .alt [.seq [.text "#",
        .alt [.seq [.oneOf "xX", .times 1 6 (.set hexDigits)], .times 1 5 (.set digits)]],
      .times 1 30 (.set letters)],
    .text ";"]

/-- Text of a JSX attribute up to the quote or to a character reference. -/
def jsxStringPattern (quote : Char) : Regex :=
  .plus (.alt [.noneOf ((CharSet.single quote).union (.single '&')),
    .seq [.text "&", .noneOf ((CharSet.single '#').union letters)]])

/-- The word `get` on the line after `static`, read as one token. -/
def staticGet : Rule :=
  .shownAs ⟨"static get", false⟩ (token (.seq [.text "static", .plus (.set space), .text "get",
    .star (.set space), .text "\n"]))

/-- Binary operators with their precedence and whether they group to the right. -/
def binaryOperators : List (String × String × Bool) :=
  [("&&", "logical_and", false), ("||", "logical_or", false), (">>", "binary_shift", false),
   (">>>", "binary_shift", false), ("<<", "binary_shift", false), ("&", "bitwise_and", false),
   ("^", "bitwise_xor", false), ("|", "bitwise_or", false), ("+", "binary_plus", false),
   ("-", "binary_plus", false), ("*", "binary_times", false), ("/", "binary_times", false),
   ("%", "binary_times", false), ("**", "binary_exp", true), ("<", "binary_relation", false),
   ("<=", "binary_relation", false), ("==", "binary_equality", false),
   ("===", "binary_equality", false), ("!=", "binary_equality", false),
   ("!==", "binary_equality", false), (">=", "binary_relation", false),
   (">", "binary_relation", false), ("??", "ternary", false),
   ("instanceof", "binary_relation", false), ("in", "binary_relation", false)]

def binaryExpression : Rule :=
  .choice (binaryOperators.map fun (op, p, toRight) =>
    .prec (.named p) (some (if toRight then .right else .left)) (.seq [
      .field "left" (
        if op == "in" then .choice [sym "expression", sym "private_property_identifier"]
        else sym "expression"),
      .field "operator" op,
      .field "right" (sym "expression")]))

def augmentedOperators : List Rule :=
  ["+=", "-=", "*=", "/=", "%=", "^=", "&=", "|=", ">>=", ">>>=", "<<=", "**=", "&&=", "||=", "??="]

def quoted (fragments : Rule) (quote : String) : Rule := .seq [quote, many fragments, quote]

/-- Rules of modules and of statements. -/
def statements : List (String × Rule) := [
  entry "program" (.seq [optional (sym "hash_bang_line"), many (sym "statement")]),
  entry "hash_bang_line" (token (.seq [.text "#!", .star (.noneOf (.single '\n'))])),
  entry "export_statement" (.choice [
    .seq ["export",
      .choice [
        .seq ["*", sym "_from_clause"],
        .seq [sym "namespace_export", sym "_from_clause"],
        .seq [sym "export_clause", sym "_from_clause"],
        sym "export_clause"],
      sym "_semicolon"],
    .seq [many (.field "decorator" (sym "decorator")),
      "export",
      .choice [
        .field "declaration" (sym "declaration"),
        .seq ["default",
          .choice [
            .field "declaration" (sym "declaration"),
            .seq [.field "value" (sym "expression"), sym "_semicolon"]]]]]]),
  entry "namespace_export" (.seq ["*", "as", sym "_module_export_name"]),
  entry "export_clause" (.seq [lbrace, commaSep (sym "export_specifier"), optional ",", rbrace]),
  entry "export_specifier" (.seq [
    .field "name" (sym "_module_export_name"),
    optional (.seq ["as", .field "alias" (sym "_module_export_name")])]),
  entry "_module_export_name" (.choice [sym "identifier", sym "string"]),
  entry "declaration" (.choice [
    sym "function_declaration", sym "generator_function_declaration", sym "class_declaration",
    sym "lexical_declaration", sym "variable_declaration"]),
  entry "import" "import",
  entry "import_statement" (.seq ["import",
    .choice [
      .seq [sym "import_clause", sym "_from_clause"],
      .field "source" (sym "string")],
    optional (sym "import_attribute"),
    sym "_semicolon"]),
  entry "import_clause" (.choice [
    sym "namespace_import", sym "named_imports",
    .seq [sym "identifier",
      optional (.seq [",", .choice [sym "namespace_import", sym "named_imports"]])]]),
  entry "_from_clause" (.seq ["from", .field "source" (sym "string")]),
  entry "namespace_import" (.seq ["*", "as", sym "identifier"]),
  entry "named_imports" (.seq [lbrace, commaSep (sym "import_specifier"), optional ",", rbrace]),
  entry "import_specifier" (.choice [
    .field "name" (sym "identifier"),
    .seq [
      .field "name" (.choice [sym "_module_export_name", as "identifier" "default"]),
      "as",
      .field "alias" (sym "identifier")]]),
  entry "import_attribute" (.seq ["with", sym "object"]),
  entry "statement" (.choice (List.map sym [
    "export_statement", "import_statement", "debugger_statement", "expression_statement",
    "declaration", "statement_block", "if_statement", "switch_statement", "for_statement",
    "for_in_statement", "while_statement", "do_statement", "try_statement", "with_statement",
    "break_statement", "continue_statement", "return_statement", "throw_statement",
    "empty_statement", "labeled_statement"])),
  entry "expression_statement" (.seq [sym "_expressions", sym "_semicolon"]),
  entry "variable_declaration" (.seq [
    "var", commaSep1 (sym "variable_declarator"), sym "_semicolon"]),
  entry "lexical_declaration" (.seq [
    .field "kind" (.choice ["let", "const"]),
    commaSep1 (sym "variable_declarator"),
    sym "_semicolon"]),
  entry "variable_declarator" (.seq [
    .field "name" (.choice [sym "identifier", sym "_destructuring_pattern"]),
    optional (sym "_initializer")]),
  entry "statement_block" (rightAssoc (.seq [lbrace, many (sym "statement"), rbrace,
    optional (sym "_automatic_semicolon")])),
  entry "else_clause" (.seq ["else", sym "statement"]),
  entry "if_statement" (rightAssoc (.seq ["if",
    .field "condition" (sym "parenthesized_expression"),
    .field "consequence" (sym "statement"),
    optional (.field "alternative" (sym "else_clause"))])),
  entry "switch_statement" (.seq ["switch",
    .field "value" (sym "parenthesized_expression"),
    .field "body" (sym "switch_body")]),
  entry "for_statement" (.seq ["for", "(",
    .choice [
      .field "initializer" (.choice [sym "lexical_declaration", sym "variable_declaration"]),
      .seq [.field "initializer" (sym "_expressions"), ";"],
      .field "initializer" (sym "empty_statement")],
    .field "condition" (.choice [.seq [sym "_expressions", ";"], sym "empty_statement"]),
    .field "increment" (optional (sym "_expressions")),
    ")",
    .field "body" (sym "statement")]),
  entry "for_in_statement" (.seq ["for", optional "await", sym "_for_header",
    .field "body" (sym "statement")]),
  entry "_for_header" (.seq ["(",
    .choice [
      .field "left" (.choice [sym "_lhs_expression", sym "parenthesized_expression"]),
      .seq [
        .field "kind" "var",
        .field "left" (.choice [sym "identifier", sym "_destructuring_pattern"]),
        optional (sym "_initializer")],
      .seq [
        .field "kind" (.choice ["let", "const"]),
        .field "left" (.choice [sym "identifier", sym "_destructuring_pattern"]),
        optional (sym "_automatic_semicolon")]],
    .field "operator" (.choice ["in", "of"]),
    .field "right" (sym "_expressions"),
    ")"]),
  entry "while_statement" (.seq ["while",
    .field "condition" (sym "parenthesized_expression"),
    .field "body" (sym "statement")]),
  entry "do_statement" (rightAssoc (.seq ["do",
    .field "body" (sym "statement"),
    "while",
    .field "condition" (sym "parenthesized_expression"),
    optional (sym "_semicolon")])),
  entry "try_statement" (.seq ["try",
    .field "body" (sym "statement_block"),
    optional (.field "handler" (sym "catch_clause")),
    optional (.field "finalizer" (sym "finally_clause"))]),
  entry "with_statement" (.seq ["with",
    .field "object" (sym "parenthesized_expression"),
    .field "body" (sym "statement")]),
  entry "break_statement" (.seq ["break",
    .field "label" (optional (as "statement_identifier" (sym "identifier"))),
    sym "_semicolon"]),
  entry "continue_statement" (.seq ["continue",
    .field "label" (optional (as "statement_identifier" (sym "identifier"))),
    sym "_semicolon"]),
  entry "debugger_statement" (.seq ["debugger", sym "_semicolon"]),
  entry "return_statement" (.seq ["return", optional (sym "_expressions"), sym "_semicolon"]),
  entry "throw_statement" (.seq ["throw", sym "_expressions", sym "_semicolon"]),
  entry "empty_statement" ";",
  entry "labeled_statement" (.dynamic (-1) (.seq [
    .field "label" (as "statement_identifier"
      (.choice [sym "identifier", sym "_reserved_identifier"])),
    ":",
    .field "body" (sym "statement")])),
  entry "switch_body" (.seq [
    lbrace, many (.choice [sym "switch_case", sym "switch_default"]), rbrace]),
  entry "switch_case" (.seq ["case", .field "value" (sym "_expressions"), ":",
    .field "body" (many (sym "statement"))]),
  entry "switch_default" (.seq ["default", ":", .field "body" (many (sym "statement"))]),
  entry "catch_clause" (.seq ["catch",
    optional (.seq ["(",
      .field "parameter" (.choice [sym "identifier", sym "_destructuring_pattern"]), ")"]),
    .field "body" (sym "statement_block")]),
  entry "finally_clause" (.seq ["finally", .field "body" (sym "statement_block")]),
  entry "parenthesized_expression" (.seq ["(", sym "_expressions", ")"])]

/-- Rules of expressions, patterns and JSX. -/
def expressions : List (String × Rule) := [
  entry "_expressions" (.choice [sym "expression", sym "sequence_expression"]),
  entry "expression" (.choice (List.map sym [
    "primary_expression", "_jsx_element", "assignment_expression",
    "augmented_assignment_expression", "await_expression", "unary_expression",
    "binary_expression", "ternary_expression", "update_expression", "new_expression",
    "yield_expression"])),
  entry "primary_expression" (.choice [
    sym "subscript_expression", sym "member_expression", sym "parenthesized_expression",
    sym "_identifier", as "identifier" (sym "_reserved_identifier"), sym "this", sym "super",
    sym "number", sym "string", sym "template_string", sym "regex", sym "true", sym "false",
    sym "null", sym "object", sym "array", sym "function_expression", sym "arrow_function",
    sym "generator_function", sym "class", sym "meta_property", sym "call_expression"]),
  entry "yield_expression" (rightAssoc (.seq ["yield",
    .choice [.seq ["*", sym "expression"], optional (sym "expression")]])),
  entry "object" (level "object" (.seq [lbrace,
    commaSep (optional (.choice [
      sym "pair", sym "spread_element", sym "method_definition",
      as "shorthand_property_identifier"
        (.choice [sym "identifier", sym "_reserved_identifier"])])),
    rbrace])),
  entry "object_pattern" (level "object" (.seq [lbrace,
    commaSep (optional (.choice [
      sym "pair_pattern", sym "rest_pattern", sym "object_assignment_pattern",
      as "shorthand_property_identifier_pattern"
        (.choice [sym "identifier", sym "_reserved_identifier"])])),
    rbrace])),
  entry "assignment_pattern" (.seq [
    .field "left" (sym "pattern"), "=", .field "right" (sym "expression")]),
  entry "object_assignment_pattern" (.seq [
    .field "left" (.choice [
      as "shorthand_property_identifier_pattern"
        (.choice [sym "_reserved_identifier", sym "identifier"]),
      sym "_destructuring_pattern"]),
    "=",
    .field "right" (sym "expression")]),
  entry "array" (.seq [
    "[", commaSep (optional (.choice [sym "expression", sym "spread_element"])), "]"]),
  entry "array_pattern" (.seq ["[",
    commaSep (optional (.choice [sym "pattern", sym "assignment_pattern"])), "]"]),
  entry "_jsx_element" (.choice [sym "jsx_element", sym "jsx_self_closing_element"]),
  entry "jsx_element" (.seq [
    .field "open_tag" (sym "jsx_opening_element"),
    many (sym "_jsx_child"),
    .field "close_tag" (sym "jsx_closing_element")]),
  entry "html_character_reference" (token characterReferencePattern),
  entry "jsx_expression" (.seq [lbrace,
    optional (.choice [sym "expression", sym "sequence_expression", sym "spread_element"]),
    rbrace]),
  entry "_jsx_child" (.choice [
    sym "jsx_text", sym "html_character_reference", sym "_jsx_element", sym "jsx_expression"]),
  entry "jsx_opening_element" (.dynamic (-1) (.seq ["<",
    optional (.seq [
      .field "name" (sym "_jsx_element_name"),
      many (.field "attribute" (sym "_jsx_attribute"))]),
    ">"])),
  entry "jsx_identifier" (token jsxIdentifierPattern),
  entry "_jsx_identifier" (.choice [as "identifier" (sym "jsx_identifier"), sym "identifier"]),
  entry "nested_identifier" (level "member" (.seq [
    .field "object" (.choice [sym "identifier", as "member_expression" (sym "nested_identifier")]),
    ".",
    .field "property" (as "property_identifier" (sym "identifier"))])),
  entry "jsx_namespace_name" (.seq [sym "_jsx_identifier", ":", sym "_jsx_identifier"]),
  entry "_jsx_element_name" (.choice [
    sym "_jsx_identifier", as "member_expression" (sym "nested_identifier"),
    sym "jsx_namespace_name"]),
  entry "jsx_closing_element" (.seq [
    "</", optional (.field "name" (sym "_jsx_element_name")), ">"]),
  entry "jsx_self_closing_element" (.seq ["<",
    .field "name" (sym "_jsx_element_name"),
    many (.field "attribute" (sym "_jsx_attribute")),
    "/>"]),
  entry "_jsx_attribute" (.choice [sym "jsx_attribute", sym "jsx_expression"]),
  entry "_jsx_attribute_name" (.choice [
    as "property_identifier" (sym "_jsx_identifier"), sym "jsx_namespace_name"]),
  entry "jsx_attribute" (.seq [sym "_jsx_attribute_name",
    optional (.seq ["=", sym "_jsx_attribute_value"])]),
  entry "_jsx_string" (.choice [
    quoted (.choice [
      as "string_fragment" (sym "unescaped_double_jsx_string_fragment"),
      sym "html_character_reference"]) "\"",
    quoted (.choice [
      as "string_fragment" (sym "unescaped_single_jsx_string_fragment"),
      sym "html_character_reference"]) "'"]),
  entry "unescaped_double_jsx_string_fragment" (immediate 1 (jsxStringPattern '\x22')),
  entry "unescaped_single_jsx_string_fragment" (immediate 1 (jsxStringPattern '\x27')),
  entry "_jsx_attribute_value" (.choice [
    as "string" (sym "_jsx_string"), sym "jsx_expression", sym "_jsx_element"]),
  entry "class" (level "literal" (.seq [
    many (.field "decorator" (sym "decorator")),
    "class",
    .field "name" (optional (sym "identifier")),
    optional (sym "class_heritage"),
    .field "body" (sym "class_body")])),
  entry "class_declaration" (level "declaration" (.seq [
    many (.field "decorator" (sym "decorator")),
    "class",
    .field "name" (sym "identifier"),
    optional (sym "class_heritage"),
    .field "body" (sym "class_body"),
    optional (sym "_automatic_semicolon")])),
  entry "class_heritage" (.seq ["extends", sym "expression"]),
  entry "function_expression" (level "literal" (.seq [
    optional "async", "function",
    .field "name" (optional (sym "identifier")),
    sym "_call_signature",
    .field "body" (sym "statement_block")])),
  entry "function_declaration" (right "declaration" (.seq [
    optional "async", "function",
    .field "name" (sym "identifier"),
    sym "_call_signature",
    .field "body" (sym "statement_block"),
    optional (sym "_automatic_semicolon")])),
  entry "generator_function" (level "literal" (.seq [
    optional "async", "function", "*",
    .field "name" (optional (sym "identifier")),
    sym "_call_signature",
    .field "body" (sym "statement_block")])),
  entry "generator_function_declaration" (right "declaration" (.seq [
    optional "async", "function", "*",
    .field "name" (sym "identifier"),
    sym "_call_signature",
    .field "body" (sym "statement_block"),
    optional (sym "_automatic_semicolon")])),
  entry "arrow_function" (.seq [
    optional "async",
    .choice [
      .field "parameter" (.choice [
        as "identifier" (sym "_reserved_identifier"), sym "identifier"]),
      sym "_call_signature"],
    "=>",
    .field "body" (.choice [sym "expression", sym "statement_block"])]),
  entry "_call_signature" (.field "parameters" (sym "formal_parameters")),
  entry "_formal_parameter" (.choice [sym "pattern", sym "assignment_pattern"]),
  entry "optional_chain" "?.",
  entry "call_expression" (.choice [
    level "call" (.seq [
      .field "function" (.choice [sym "expression", sym "import"]),
      .field "arguments" (sym "arguments")]),
    level "template_call" (.seq [
      .field "function" (.choice [sym "primary_expression", sym "new_expression"]),
      .field "arguments" (sym "template_string")]),
    level "member" (.seq [
      .field "function" (sym "primary_expression"),
      .field "optional_chain" (sym "optional_chain"),
      .field "arguments" (sym "arguments")])]),
  entry "new_expression" (right "new" (.seq ["new",
    .field "constructor" (.choice [sym "primary_expression", sym "new_expression"]),
    .field "arguments" (optional (.dynamic 1 (sym "arguments")))])),
  entry "await_expression" (level "unary_void" (.seq ["await", sym "expression"])),
  entry "member_expression" (level "member" (.seq [
    .field "object" (.choice [sym "expression", sym "primary_expression", sym "import"]),
    .choice [".", .field "optional_chain" (sym "optional_chain")],
    .field "property" (.choice [
      sym "private_property_identifier", as "property_identifier" (sym "identifier")])])),
  entry "subscript_expression" (right "member" (.seq [
    .field "object" (.choice [sym "expression", sym "primary_expression"]),
    optional (.field "optional_chain" (sym "optional_chain")),
    "[", .field "index" (sym "_expressions"), "]"])),
  entry "_lhs_expression" (.choice [
    sym "member_expression", sym "subscript_expression", sym "_identifier",
    as "identifier" (sym "_reserved_identifier"), sym "_destructuring_pattern"]),
  entry "assignment_expression" (right "assign" (.seq [
    optional "using",
    .field "left" (.choice [sym "parenthesized_expression", sym "_lhs_expression"]),
    "=",
    .field "right" (sym "expression")])),
  entry "_augmented_assignment_lhs" (.choice [
    sym "member_expression", sym "subscript_expression",
    as "identifier" (sym "_reserved_identifier"), sym "identifier",
    sym "parenthesized_expression"]),
  entry "augmented_assignment_expression" (right "assign" (.seq [
    .field "left" (sym "_augmented_assignment_lhs"),
    .field "operator" (.choice augmentedOperators),
    .field "right" (sym "expression")])),
  entry "_initializer" (.seq ["=", .field "value" (sym "expression")]),
  entry "_destructuring_pattern" (.choice [sym "object_pattern", sym "array_pattern"]),
  entry "spread_element" (.seq ["...", sym "expression"]),
  entry "ternary_expression" (right "ternary" (.seq [
    .field "condition" (sym "expression"),
    .shownAs ⟨"?", false⟩ (sym "_ternary_qmark"),
    .field "consequence" (sym "expression"),
    ":",
    .field "alternative" (sym "expression")])),
  entry "binary_expression" (binaryExpression),
  entry "unary_expression" (left "unary_void" (.seq [
    .field "operator" (.choice ["!", "~", "-", "+", "typeof", "void", "delete"]),
    .field "argument" (sym "expression")])),
  entry "update_expression" (leftAssoc (.choice [
    .seq [.field "argument" (sym "expression"), .field "operator" (.choice ["++", "--"])],
    .seq [.field "operator" (.choice ["++", "--"]), .field "argument" (sym "expression")]])),
  entry "sequence_expression" (rightAssoc (commaSep1 (sym "expression"))),
  entry "string" (.choice [
    quoted (.choice [
      as "string_fragment" (sym "unescaped_double_string_fragment"), sym "escape_sequence"]) "\"",
    quoted (.choice [
      as "string_fragment" (sym "unescaped_single_string_fragment"), sym "escape_sequence"]) "'"]),
  entry "unescaped_double_string_fragment" (immediate 1 (.plus (.noneOf (.ofString "\"\\\r\n")))),
  entry "unescaped_single_string_fragment" (immediate 1 (.plus (.noneOf (.ofString "'\\\r\n")))),
  entry "escape_sequence" (immediate 0 escapePattern),
  entry "comment" (token commentPattern),
  entry "template_string" (.seq ["`",
    many (.choice [
      as "string_fragment" (sym "_template_chars"), sym "escape_sequence",
      sym "template_substitution"]),
    "`"]),
  entry "template_substitution" (.seq ["$\x7b", sym "_expressions", rbrace]),
  entry "regex" (.seq ["/",
    .field "pattern" (sym "regex_pattern"),
    immediate 1 (.text "/"),
    optional (.field "flags" (sym "regex_flags"))]),
  entry "regex_pattern" (immediate (-1) regexPattern),
  entry "regex_flags" (immediate 0 (.plus (.set (.range 'a' 'z')))),
  entry "number" (token numberPattern),
  entry "_identifier" (.choice [sym "undefined", sym "identifier"]),
  entry "identifier" (token identifierPattern),
  entry "private_property_identifier" (token (.seq [.text "#", identifierPattern])),
  entry "meta_property" (.choice [.seq ["new", ".", "target"], .seq ["import", ".", "meta"]]),
  entry "this" "this",
  entry "super" "super",
  entry "true" "true",
  entry "false" "false",
  entry "null" "null",
  entry "undefined" "undefined"]

/-- Rules of arguments, decorators, class members and properties. -/
def members : List (String × Rule) := [
  entry "arguments" (.seq ["(",
    commaSep (optional (.choice [sym "expression", sym "spread_element"])), ")"]),
  entry "decorator" (.seq ["@",
    .choice [
      sym "identifier",
      as "member_expression" (sym "decorator_member_expression"),
      as "call_expression" (sym "decorator_call_expression")]]),
  entry "decorator_member_expression" (level "member" (.seq [
    .field "object" (.choice [
      sym "identifier", as "member_expression" (sym "decorator_member_expression")]),
    ".",
    .field "property" (as "property_identifier" (sym "identifier"))])),
  entry "decorator_call_expression" (level "call" (.seq [
    .field "function" (.choice [
      sym "identifier", as "member_expression" (sym "decorator_member_expression")]),
    .field "arguments" (sym "arguments")])),
  entry "class_body" (.seq [lbrace,
    many (.choice [
      .seq [.field "member" (sym "method_definition"), optional ";"],
      .seq [.field "member" (sym "field_definition"), sym "_semicolon"],
      .field "member" (sym "class_static_block"),
      ";"]),
    rbrace]),
  entry "field_definition" (.seq [
    many (.field "decorator" (sym "decorator")),
    optional (.choice ["static", staticGet]),
    .field "property" (sym "_property_name"),
    optional (sym "_initializer")]),
  entry "formal_parameters" (.seq ["(",
    optional (.seq [commaSep1 (sym "_formal_parameter"), optional ","]), ")"]),
  entry "class_static_block" (.seq ["static", .field "body" (sym "statement_block")]),
  entry "pattern" (.dynamic (-1) (.choice [sym "_lhs_expression", sym "rest_pattern"])),
  entry "rest_pattern" (rightAssoc (.seq ["...", sym "_lhs_expression"])),
  entry "method_definition" (.seq [
    many (.field "decorator" (sym "decorator")),
    optional (.choice ["static", staticGet]),
    optional "async",
    optional (.choice ["get", "set", "*"]),
    .field "name" (sym "_property_name"),
    .field "parameters" (sym "formal_parameters"),
    .field "body" (sym "statement_block")]),
  entry "pair" (.seq [.field "key" (sym "_property_name"), ":", .field "value" (sym "expression")]),
  entry "pair_pattern" (.seq [
    .field "key" (sym "_property_name"), ":",
    .field "value" (.choice [sym "pattern", sym "assignment_pattern"])]),
  entry "_property_name" (.choice [
    as "property_identifier" (.choice [sym "identifier", sym "_reserved_identifier"]),
    sym "private_property_identifier", sym "string", sym "number",
    sym "computed_property_name"]),
  entry "computed_property_name" (.seq ["[", sym "expression", "]"]),
  entry "_reserved_identifier" (.choice ["get", "set", "async", "static", "export", "let"]),
  entry "_semicolon" (.choice [sym "_automatic_semicolon", ";"])]

/-- Tokens found by layout, in the order in which `ClassAtlas.Lexing.Layout` numbers them. -/
def externals : List Rule :=
  [sym "_automatic_semicolon", sym "_template_chars", sym "_ternary_qmark", sym "html_comment",
   "||", sym "escape_sequence", sym "regex_pattern", sym "jsx_text"]

def supertypes : List String :=
  ["statement", "declaration", "expression", "primary_expression", "pattern"]

def inlined : List String :=
  ["_call_signature", "_formal_parameter", "_expressions", "_semicolon", "_identifier",
   "_reserved_identifier", "_jsx_attribute", "_jsx_element_name", "_jsx_child", "_jsx_element",
   "_jsx_attribute_name", "_jsx_attribute_value", "_jsx_identifier", "_lhs_expression"]

def orderings : List (List Rank) := [
  [.level "member", .level "template_call", .level "call", .rule "update_expression",
   .level "unary_void", .level "binary_exp", .level "binary_times", .level "binary_plus",
   .level "binary_shift", .level "binary_compare", .level "binary_relation",
   .level "binary_equality", .level "bitwise_and", .level "bitwise_xor", .level "bitwise_or",
   .level "logical_and", .level "logical_or", .level "ternary", .rule "sequence_expression",
   .rule "arrow_function"],
  [.level "assign", .rule "primary_expression"],
  [.level "member", .level "template_call", .level "new", .level "call", .rule "expression"],
  [.level "declaration", .level "literal"],
  [.rule "primary_expression", .rule "statement_block", .level "object"],
  [.rule "meta_property", .rule "import"],
  [.rule "import_statement", .rule "import"],
  [.rule "export_statement", .rule "primary_expression"],
  [.rule "lexical_declaration", .rule "primary_expression"]]

end JavaScript

/-- The grammar of JavaScript sources, JSX included. -/
def javaScript : RuleSet where
  name := "javascript"
  rules := JavaScript.statements ++ JavaScript.expressions ++ JavaScript.members
  extras := [.ref "comment", .ref "html_comment"]
  blanks := JavaScript.blanks
  externals := JavaScript.externals
  inlined := JavaScript.inlined
  supertypes := JavaScript.supertypes
  word := "identifier"
  orderings := JavaScript.orderings

end ClassAtlas.Grammar
