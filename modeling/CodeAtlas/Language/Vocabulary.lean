/-! # Vocabularies

The names that each language gives to the nodes of its syntax trees and to the fields of a node.
Named kinds stand for constructs, supertypes for families of constructs, and the other kinds for
the words and marks of the language. -/

namespace CodeAtlas.Language

/-- The names that may stand in a query on trees of one language. -/
structure Vocabulary where
  named : List String
  supertypes : List String
  anonymous : List String
  fields : List String

namespace Vocabulary

def go : Vocabulary where
  named := ["argument_list", "array_type", "assignment_statement", "binary_expression",
    "blank_identifier", "block", "break_statement", "call_expression", "channel_type", "comment",
    "communication_case", "composite_literal", "const_declaration", "const_spec",
    "continue_statement", "dec_statement", "default_case", "defer_statement", "dot",
    "empty_statement", "escape_sequence", "expression_case", "expression_list",
    "expression_statement", "expression_switch_statement", "fallthrough_statement", "false",
    "field_declaration", "field_declaration_list", "field_identifier", "float_literal",
    "for_clause", "for_statement", "func_literal", "function_declaration", "function_type",
    "generic_type", "go_statement", "goto_statement", "identifier", "if_statement",
    "imaginary_literal", "implicit_length_array_type", "import_declaration", "import_spec",
    "import_spec_list", "inc_statement", "index_expression", "int_literal", "interface_type",
    "interpreted_string_literal", "interpreted_string_literal_content", "iota", "keyed_element",
    "label_name", "labeled_statement", "literal_element", "literal_value", "map_type",
    "method_declaration", "method_elem", "negated_type", "nil", "package_clause",
    "package_identifier", "parameter_declaration", "parameter_list", "parenthesized_expression",
    "parenthesized_type", "pointer_type", "qualified_type", "range_clause", "raw_string_literal",
    "raw_string_literal_content", "receive_statement", "return_statement", "rune_literal",
    "select_statement", "selector_expression", "send_statement", "short_var_declaration",
    "slice_expression", "slice_type", "source_file", "struct_type", "true", "type_alias",
    "type_arguments", "type_assertion_expression", "type_case", "type_constraint",
    "type_conversion_expression", "type_declaration", "type_elem", "type_identifier",
    "type_instantiation_expression", "type_parameter_declaration", "type_parameter_list",
    "type_spec", "type_switch_statement", "unary_expression", "var_declaration", "var_spec",
    "var_spec_list", "variadic_argument", "variadic_parameter_declaration"]
  supertypes := ["_expression", "_simple_statement", "_simple_type", "_statement"]
  anonymous := ["", "!", "!=", "\"", "%", "%=", "&", "&&", "&=", "&^", "&^=", "(", ")", "*", "*=",
    "+", "++", "+=", ",", "-", "--", "-=", ".", "...", "/", "/=", ":", ":=", ";", "<", "<-", "<<",
    "<<=", "<=", "=", "==", ">", ">=", ">>", ">>=", "[", "]", "^", "^=", "`", "break", "case",
    "chan", "const", "continue", "default", "defer", "else", "fallthrough", "for", "func", "go",
    "goto", "if", "import", "interface", "map", "package", "range", "return", "select", "struct",
    "switch", "type", "var", "\x7b", "|", "|=", "||", "\x7d", "~"]
  fields := ["alias", "alternative", "arguments", "body", "capacity", "channel", "communication",
    "condition", "consequence", "element", "end", "field", "function", "index", "initializer",
    "key", "label", "left", "length", "name", "operand", "operator", "package", "parameters",
    "path", "receiver", "result", "right", "start", "tag", "type", "type_arguments",
    "type_parameters", "update", "value"]

def javascript : Vocabulary where
  named := ["arguments", "array", "array_pattern", "arrow_function", "assignment_expression",
    "assignment_pattern", "augmented_assignment_expression", "await_expression",
    "binary_expression", "break_statement", "call_expression", "catch_clause", "class",
    "class_body", "class_declaration", "class_heritage", "class_static_block", "comment",
    "computed_property_name", "continue_statement", "debugger_statement", "decorator",
    "do_statement", "else_clause", "empty_statement", "escape_sequence", "export_clause",
    "export_specifier", "export_statement", "expression_statement", "false", "field_definition",
    "finally_clause", "for_in_statement", "for_statement", "formal_parameters",
    "function_declaration", "function_expression", "generator_function",
    "generator_function_declaration", "hash_bang_line", "html_character_reference", "html_comment",
    "identifier", "if_statement", "import", "import_attribute", "import_clause", "import_specifier",
    "import_statement", "jsx_attribute", "jsx_closing_element", "jsx_element", "jsx_expression",
    "jsx_namespace_name", "jsx_opening_element", "jsx_self_closing_element", "jsx_text",
    "labeled_statement", "lexical_declaration", "member_expression", "meta_property",
    "method_definition", "named_imports", "namespace_export", "namespace_import", "new_expression",
    "null", "number", "object", "object_assignment_pattern", "object_pattern", "optional_chain",
    "pair", "pair_pattern", "parenthesized_expression", "private_property_identifier", "program",
    "property_identifier", "regex", "regex_flags", "regex_pattern", "rest_pattern",
    "return_statement", "sequence_expression", "shorthand_property_identifier",
    "shorthand_property_identifier_pattern", "spread_element", "statement_block",
    "statement_identifier", "string", "string_fragment", "subscript_expression", "super",
    "switch_body", "switch_case", "switch_default", "switch_statement", "template_string",
    "template_substitution", "ternary_expression", "this", "throw_statement", "true",
    "try_statement", "unary_expression", "undefined", "update_expression", "variable_declaration",
    "variable_declarator", "while_statement", "with_statement", "yield_expression"]
  supertypes := ["declaration", "expression", "pattern", "primary_expression", "statement"]
  anonymous := ["!", "!=", "!==", "\"", "$\x7b", "%", "%=", "&", "&&", "&&=", "&=", "'", "(", ")",
    "*", "**", "**=", "*=", "+", "++", "+=", ",", "-", "--", "-=", ".", "...", "/", "/=", "/>", ":",
    ";", "<", "</", "<<", "<<=", "<=", "=", "==", "===", "=>", ">", ">=", ">>", ">>=", ">>>",
    ">>>=", "?", "??", "??=", "@", "[", "]", "^", "^=", "`", "as", "async", "await", "break",
    "case", "catch", "class", "const", "continue", "debugger", "default", "delete", "do", "else",
    "export", "extends", "finally", "for", "from", "function", "get", "if", "import", "in",
    "instanceof", "let", "meta", "new", "of", "return", "set", "static", "static get", "switch",
    "target", "throw", "try", "typeof", "var", "void", "while", "with", "yield", "\x7b", "|", "|=",
    "||", "||=", "\x7d", "~"]
  fields := ["alias", "alternative", "argument", "arguments", "attribute", "body", "close_tag",
    "condition", "consequence", "constructor", "declaration", "decorator", "finalizer", "flags",
    "function", "handler", "increment", "index", "initializer", "key", "kind", "label", "left",
    "member", "name", "object", "open_tag", "operator", "optional_chain", "parameter", "parameters",
    "pattern", "property", "right", "source", "value"]

def python : Vocabulary where
  named := ["aliased_import", "argument_list", "as_pattern", "as_pattern_target",
    "assert_statement", "assignment", "attribute", "augmented_assignment", "await",
    "binary_operator", "block", "boolean_operator", "break_statement", "call", "case_clause",
    "case_pattern", "chevron", "class_definition", "class_pattern", "comment",
    "comparison_operator", "complex_pattern", "concatenated_string", "conditional_expression",
    "constrained_type", "continue_statement", "decorated_definition", "decorator",
    "default_parameter", "delete_statement", "dict_pattern", "dictionary",
    "dictionary_comprehension", "dictionary_splat", "dictionary_splat_pattern", "dotted_name",
    "elif_clause", "ellipsis", "else_clause", "escape_interpolation", "escape_sequence",
    "except_clause", "except_group_clause", "exec_statement", "expression_list",
    "expression_statement", "false", "finally_clause", "float", "for_in_clause", "for_statement",
    "format_expression", "format_specifier", "function_definition", "future_import_statement",
    "generator_expression", "generic_type", "global_statement", "identifier", "if_clause",
    "if_statement", "import_from_statement", "import_prefix", "import_statement", "integer",
    "interpolation", "keyword_argument", "keyword_pattern", "keyword_separator", "lambda",
    "lambda_parameters", "line_continuation", "list", "list_comprehension", "list_pattern",
    "list_splat", "list_splat_pattern", "match_statement", "member_type", "module",
    "named_expression", "none", "nonlocal_statement", "not_operator", "pair", "parameters",
    "parenthesized_expression", "parenthesized_list_splat", "pass_statement", "pattern_list",
    "positional_separator", "print_statement", "raise_statement", "relative_import",
    "return_statement", "set", "set_comprehension", "slice", "splat_pattern", "splat_type",
    "string", "string_content", "string_end", "string_start", "subscript", "true", "try_statement",
    "tuple", "tuple_pattern", "type", "type_alias_statement", "type_conversion", "type_parameter",
    "typed_default_parameter", "typed_parameter", "unary_operator", "union_pattern", "union_type",
    "while_statement", "wildcard_import", "with_clause", "with_item", "with_statement", "yield"]
  supertypes := ["expression", "parameter", "pattern", "primary_expression"]
  anonymous := ["!=", "%", "%=", "&", "&=", "(", ")", "*", "**", "**=", "*=", "+", "+=", ",", "-",
    "-=", "->", ".", "/", "//", "//=", "/=", ":", ":=", ";", "<", "<<", "<<=", "<=", "<>", "=",
    "==", ">", ">=", ">>", ">>=", "@", "@=", "[", "\\", "]", "^", "^=", "_", "__future__", "and",
    "as", "assert", "async", "await", "break", "case", "class", "continue", "def", "del", "elif",
    "else", "except", "except*", "exec", "finally", "for", "from", "global", "if", "import", "in",
    "is", "is not", "lambda", "match", "nonlocal", "not", "not in", "or", "pass", "print", "raise",
    "return", "try", "type", "while", "with", "yield", "\x7b", "|", "|=", "\x7d", "~"]
  fields := ["alias", "alternative", "argument", "arguments", "attribute", "body", "cause", "code",
    "condition", "consequence", "definition", "expression", "format_specifier", "function", "guard",
    "key", "left", "module_name", "name", "object", "operator", "operators", "parameters",
    "return_type", "right", "subject", "subscript", "superclasses", "type", "type_conversion",
    "type_parameters", "value"]

def rust : Vocabulary where
  named := ["abstract_type", "arguments", "array_expression", "array_type", "assignment_expression",
    "associated_type", "async_block", "attribute", "attribute_item", "await_expression",
    "base_field_initializer", "binary_expression", "block", "block_comment", "boolean_literal",
    "bounded_type", "bracketed_type", "break_expression", "call_expression", "captured_pattern",
    "char_literal", "closure_expression", "closure_parameters", "compound_assignment_expr",
    "const_block", "const_item", "const_parameter", "continue_expression", "crate",
    "declaration_list", "doc_comment", "dynamic_type", "else_clause", "empty_statement",
    "enum_item", "enum_variant", "enum_variant_list", "escape_sequence", "expression_statement",
    "extern_crate_declaration", "extern_modifier", "field_declaration", "field_declaration_list",
    "field_expression", "field_identifier", "field_initializer", "field_initializer_list",
    "field_pattern", "float_literal", "for_expression", "for_lifetimes", "foreign_mod_item",
    "fragment_specifier", "function_item", "function_modifiers", "function_signature_item",
    "function_type", "gen_block", "generic_function", "generic_pattern", "generic_type",
    "generic_type_with_turbofish", "higher_ranked_trait_bound", "identifier", "if_expression",
    "impl_item", "index_expression", "inner_attribute_item", "inner_doc_comment_marker",
    "integer_literal", "label", "let_chain", "let_condition", "let_declaration", "lifetime",
    "lifetime_parameter", "line_comment", "loop_expression", "macro_definition", "macro_invocation",
    "macro_rule", "match_arm", "match_block", "match_expression", "match_pattern", "metavariable",
    "mod_item", "mut_pattern", "mutable_specifier", "negative_literal", "never_type", "or_pattern",
    "ordered_field_declaration_list", "outer_doc_comment_marker", "parameter", "parameters",
    "parenthesized_expression", "pointer_type", "primitive_type", "qualified_type",
    "range_expression", "range_pattern", "raw_string_literal", "ref_pattern",
    "reference_expression", "reference_pattern", "reference_type", "remaining_field_pattern",
    "removed_trait_bound", "return_expression", "scoped_identifier", "scoped_type_identifier",
    "scoped_use_list", "self", "self_parameter", "shebang", "shorthand_field_identifier",
    "shorthand_field_initializer", "slice_pattern", "source_file", "static_item", "string_content",
    "string_literal", "struct_expression", "struct_item", "struct_pattern", "super",
    "token_binding_pattern", "token_repetition", "token_repetition_pattern", "token_tree",
    "token_tree_pattern", "trait_bounds", "trait_item", "try_block", "try_expression",
    "tuple_expression", "tuple_pattern", "tuple_struct_pattern", "tuple_type", "type_arguments",
    "type_binding", "type_cast_expression", "type_identifier", "type_item", "type_parameter",
    "type_parameters", "unary_expression", "union_item", "unit_expression", "unit_type",
    "unsafe_block", "use_as_clause", "use_bounds", "use_declaration", "use_list", "use_wildcard",
    "variadic_parameter", "visibility_modifier", "where_clause", "where_predicate",
    "while_expression", "yield_expression"]
  supertypes := ["_expression", "_literal", "_literal_pattern", "_pattern", "_type"]
  anonymous := ["!", "!=", "\"", "#", "$", "%", "%=", "&", "&&", "&=", "'", "(", ")", "*", "*/",
    "*=", "+", "+=", ",", "-", "-=", "->", ".", "..", "...", "..=", "/", "/*", "//", "/=", ":",
    "::", ";", "<", "<<", "<<=", "<=", "=", "==", "=>", ">", ">=", ">>", ">>=", "?", "@", "[", "]",
    "^", "^=", "_", "as", "async", "await", "block", "break", "const", "continue", "default", "dyn",
    "else", "enum", "expr", "expr_2021", "extern", "false", "fn", "for", "gen", "ident", "if",
    "impl", "in", "item", "let", "lifetime", "literal", "loop", "macro_rules!", "match", "meta",
    "mod", "move", "pat", "pat_param", "path", "pub", "raw", "ref", "return", "static", "stmt",
    "struct", "trait", "true", "try", "tt", "ty", "type", "union", "unsafe", "use", "vis", "where",
    "while", "yield", "\x7b", "|", "|=", "||", "\x7d"]
  fields := ["alias", "alternative", "argument", "arguments", "body", "bounds", "condition",
    "consequence", "default_type", "doc", "element", "field", "function", "inner", "left", "length",
    "list", "macro", "name", "operator", "outer", "parameters", "path", "pattern", "return_type",
    "right", "trait", "type", "type_arguments", "type_parameters", "value"]

def tsx : Vocabulary where
  named := ["abstract_class_declaration", "abstract_method_signature", "accessibility_modifier",
    "adding_type_annotation", "ambient_declaration", "arguments", "array", "array_pattern",
    "array_type", "arrow_function", "as_expression", "asserts", "asserts_annotation",
    "assignment_expression", "assignment_pattern", "augmented_assignment_expression",
    "await_expression", "binary_expression", "break_statement", "call_expression", "call_signature",
    "catch_clause", "class", "class_body", "class_declaration", "class_heritage",
    "class_static_block", "comment", "computed_property_name", "conditional_type", "constraint",
    "construct_signature", "constructor_type", "continue_statement", "debugger_statement",
    "decorator", "default_type", "do_statement", "else_clause", "empty_statement",
    "enum_assignment", "enum_body", "enum_declaration", "escape_sequence", "existential_type",
    "export_clause", "export_specifier", "export_statement", "expression_statement",
    "extends_clause", "extends_type_clause", "false", "finally_clause", "flow_maybe_type",
    "for_in_statement", "for_statement", "formal_parameters", "function_declaration",
    "function_expression", "function_signature", "function_type", "generator_function",
    "generator_function_declaration", "generic_type", "hash_bang_line", "html_character_reference",
    "html_comment", "identifier", "if_statement", "implements_clause", "import", "import_alias",
    "import_attribute", "import_clause", "import_require_clause", "import_specifier",
    "import_statement", "index_signature", "index_type_query", "infer_type",
    "instantiation_expression", "interface_body", "interface_declaration", "internal_module",
    "intersection_type", "jsx_attribute", "jsx_closing_element", "jsx_element", "jsx_expression",
    "jsx_namespace_name", "jsx_opening_element", "jsx_self_closing_element", "jsx_text",
    "labeled_statement", "lexical_declaration", "literal_type", "lookup_type", "mapped_type_clause",
    "member_expression", "meta_property", "method_definition", "method_signature", "module",
    "named_imports", "namespace_export", "namespace_import", "nested_identifier",
    "nested_type_identifier", "new_expression", "non_null_expression", "null", "number", "object",
    "object_assignment_pattern", "object_pattern", "object_type", "omitting_type_annotation",
    "opting_type_annotation", "optional_chain", "optional_parameter", "optional_type",
    "override_modifier", "pair", "pair_pattern", "parenthesized_expression", "parenthesized_type",
    "predefined_type", "private_property_identifier", "program", "property_identifier",
    "property_signature", "public_field_definition", "readonly_type", "regex", "regex_flags",
    "regex_pattern", "required_parameter", "rest_pattern", "rest_type", "return_statement",
    "satisfies_expression", "sequence_expression", "shorthand_property_identifier",
    "shorthand_property_identifier_pattern", "spread_element", "statement_block",
    "statement_identifier", "string", "string_fragment", "subscript_expression", "super",
    "switch_body", "switch_case", "switch_default", "switch_statement", "template_literal_type",
    "template_string", "template_substitution", "template_type", "ternary_expression", "this",
    "this_type", "throw_statement", "true", "try_statement", "tuple_type", "type_alias_declaration",
    "type_annotation", "type_arguments", "type_identifier", "type_parameter", "type_parameters",
    "type_predicate", "type_predicate_annotation", "type_query", "unary_expression", "undefined",
    "union_type", "update_expression", "variable_declaration", "variable_declarator",
    "while_statement", "with_statement", "yield_expression"]
  supertypes := ["declaration", "expression", "pattern", "primary_expression", "primary_type",
    "statement", "type"]
  anonymous := ["!", "!=", "!==", "\"", "$\x7b", "%", "%=", "&", "&&", "&&=", "&=", "'", "(", ")",
    "*", "**", "**=", "*=", "+", "++", "+=", "+?:", ",", "-", "--", "-=", "-?:", ".", "...", "/",
    "/=", "/>", ":", ";", "<", "</", "<<", "<<=", "<=", "=", "==", "===", "=>", ">", ">=", ">>",
    ">>=", ">>>", ">>>=", "?", "?.", "?:", "??", "??=", "@", "[", "]", "^", "^=", "`", "abstract",
    "accessor", "any", "as", "assert", "asserts", "async", "await", "boolean", "break", "case",
    "catch", "class", "const", "continue", "debugger", "declare", "default", "delete", "do", "else",
    "enum", "export", "extends", "finally", "for", "from", "function", "get", "global", "if",
    "implements", "import", "in", "infer", "instanceof", "interface", "is", "keyof", "let", "meta",
    "module", "namespace", "never", "new", "number", "object", "of", "override", "private",
    "protected", "public", "readonly", "require", "return", "satisfies", "set", "static", "string",
    "switch", "symbol", "target", "throw", "try", "type", "typeof", "unique symbol", "unknown",
    "using", "var", "void", "while", "with", "yield", "\x7b", "\x7b|", "|", "|=", "||", "||=",
    "|\x7d", "\x7d", "~"]
  fields := ["alias", "alternative", "argument", "arguments", "attribute", "body", "close_tag",
    "condition", "consequence", "constraint", "constructor", "declaration", "decorator",
    "finalizer", "flags", "function", "handler", "increment", "index", "index_type", "initializer",
    "key", "kind", "label", "left", "module", "name", "object", "open_tag", "operator",
    "optional_chain", "parameter", "parameters", "pattern", "property", "return_type", "right",
    "sign", "source", "type", "type_arguments", "type_parameters", "value"]

def typescript : Vocabulary where
  named := ["abstract_class_declaration", "abstract_method_signature", "accessibility_modifier",
    "adding_type_annotation", "ambient_declaration", "arguments", "array", "array_pattern",
    "array_type", "arrow_function", "as_expression", "asserts", "asserts_annotation",
    "assignment_expression", "assignment_pattern", "augmented_assignment_expression",
    "await_expression", "binary_expression", "break_statement", "call_expression", "call_signature",
    "catch_clause", "class", "class_body", "class_declaration", "class_heritage",
    "class_static_block", "comment", "computed_property_name", "conditional_type", "constraint",
    "construct_signature", "constructor_type", "continue_statement", "debugger_statement",
    "decorator", "default_type", "do_statement", "else_clause", "empty_statement",
    "enum_assignment", "enum_body", "enum_declaration", "escape_sequence", "existential_type",
    "export_clause", "export_specifier", "export_statement", "expression_statement",
    "extends_clause", "extends_type_clause", "false", "finally_clause", "flow_maybe_type",
    "for_in_statement", "for_statement", "formal_parameters", "function_declaration",
    "function_expression", "function_signature", "function_type", "generator_function",
    "generator_function_declaration", "generic_type", "hash_bang_line", "html_comment",
    "identifier", "if_statement", "implements_clause", "import", "import_alias", "import_attribute",
    "import_clause", "import_require_clause", "import_specifier", "import_statement",
    "index_signature", "index_type_query", "infer_type", "instantiation_expression",
    "interface_body", "interface_declaration", "internal_module", "intersection_type", "jsx_text",
    "labeled_statement", "lexical_declaration", "literal_type", "lookup_type", "mapped_type_clause",
    "member_expression", "meta_property", "method_definition", "method_signature", "module",
    "named_imports", "namespace_export", "namespace_import", "nested_identifier",
    "nested_type_identifier", "new_expression", "non_null_expression", "null", "number", "object",
    "object_assignment_pattern", "object_pattern", "object_type", "omitting_type_annotation",
    "opting_type_annotation", "optional_chain", "optional_parameter", "optional_type",
    "override_modifier", "pair", "pair_pattern", "parenthesized_expression", "parenthesized_type",
    "predefined_type", "private_property_identifier", "program", "property_identifier",
    "property_signature", "public_field_definition", "readonly_type", "regex", "regex_flags",
    "regex_pattern", "required_parameter", "rest_pattern", "rest_type", "return_statement",
    "satisfies_expression", "sequence_expression", "shorthand_property_identifier",
    "shorthand_property_identifier_pattern", "spread_element", "statement_block",
    "statement_identifier", "string", "string_fragment", "subscript_expression", "super",
    "switch_body", "switch_case", "switch_default", "switch_statement", "template_literal_type",
    "template_string", "template_substitution", "template_type", "ternary_expression", "this",
    "this_type", "throw_statement", "true", "try_statement", "tuple_type", "type_alias_declaration",
    "type_annotation", "type_arguments", "type_assertion", "type_identifier", "type_parameter",
    "type_parameters", "type_predicate", "type_predicate_annotation", "type_query",
    "unary_expression", "undefined", "union_type", "update_expression", "variable_declaration",
    "variable_declarator", "while_statement", "with_statement", "yield_expression"]
  supertypes := ["declaration", "expression", "pattern", "primary_expression", "primary_type",
    "statement", "type"]
  anonymous := ["!", "!=", "!==", "\"", "$\x7b", "%", "%=", "&", "&&", "&&=", "&=", "'", "(", ")",
    "*", "**", "**=", "*=", "+", "++", "+=", "+?:", ",", "-", "--", "-=", "-?:", ".", "...", "/",
    "/=", ":", ";", "<", "<<", "<<=", "<=", "=", "==", "===", "=>", ">", ">=", ">>", ">>=", ">>>",
    ">>>=", "?", "?.", "?:", "??", "??=", "@", "[", "]", "^", "^=", "`", "abstract", "accessor",
    "any", "as", "assert", "asserts", "async", "await", "boolean", "break", "case", "catch",
    "class", "const", "continue", "debugger", "declare", "default", "delete", "do", "else", "enum",
    "export", "extends", "finally", "for", "from", "function", "get", "global", "if", "implements",
    "import", "in", "infer", "instanceof", "interface", "is", "keyof", "let", "meta", "module",
    "namespace", "never", "new", "number", "object", "of", "override", "private", "protected",
    "public", "readonly", "require", "return", "satisfies", "set", "static", "string", "switch",
    "symbol", "target", "throw", "try", "type", "typeof", "unique symbol", "unknown", "using",
    "var", "void", "while", "with", "yield", "\x7b", "\x7b|", "|", "|=", "||", "||=", "|\x7d",
    "\x7d", "~"]
  fields := ["alias", "alternative", "argument", "arguments", "body", "condition", "consequence",
    "constraint", "constructor", "declaration", "decorator", "finalizer", "flags", "function",
    "handler", "increment", "index", "index_type", "initializer", "key", "kind", "label", "left",
    "module", "name", "object", "operator", "optional_chain", "parameter", "parameters", "pattern",
    "property", "return_type", "right", "sign", "source", "type", "type_arguments",
    "type_parameters", "value"]

end Vocabulary

end CodeAtlas.Language
