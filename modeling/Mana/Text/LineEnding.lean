import Mana.Text

/-! Line endings of files: carriage returns, alone or before a newline, are read as newlines. -/
namespace Mana

/-- Every line ending of the text as one newline. -/
def Text.withNewlines : Text → Text
  | [] => []
  | '\r' :: '\n' :: rest => '\n' :: withNewlines rest
  | '\r' :: rest => '\n' :: withNewlines rest
  | c :: rest => c :: withNewlines rest

end Mana
