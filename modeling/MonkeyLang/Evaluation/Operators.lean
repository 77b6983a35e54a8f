import MonkeyLang.Arithmetic
import MonkeyLang.Evaluation.Course

namespace MonkeyLang.Eval

/-! Operators on values.

Integers compute and compare by value, strings are joined by `+`, and everything else is compared by
identity only.
-/

def unary (operator : String) (operand : Value) : Eval Value :=
  match operator with
  | "!" =>
      match operand with
      | .boolean value => return .boolean !value
      | .null => return .boolean true
      | _ => return .boolean false
  | "-" =>
      match operand with
      | .integer _ value => create (.integer · (wrap (-value)))
      | other => fail ("unknown operator: -" ++ other.typeName) (some "Prefix")
  | other => fail ("unknown operator: " ++ other ++ operand.typeName) (some "Prefix")

def integers (operator : String) (left right : Int) : Eval Value :=
  match operator with
  | "+" => create (.integer · (wrap (left + right)))
  | "-" => create (.integer · (wrap (left - right)))
  | "*" => create (.integer · (wrap (left * right)))
  | "/" =>
      if right == 0 then fail "division by zero" (some "Infix")
      else create (.integer · (wrap (quotient left right)))
  | "<" => return .boolean (left < right)
  | ">" => return .boolean (right < left)
  | "==" => return .boolean (left == right)
  | "!=" => return .boolean (left != right)
  | other => fail ("unknown operator: INTEGER " ++ other ++ " INTEGER") (some "Infix")

/-- Comparison by identity; no other operator applies. -/
def objects (operator : String) (left right : Value) : Eval Value :=
  match operator with
  | "==" => return .boolean (left.same right)
  | "!=" => return .boolean !(left.same right)
  | other =>
      let problem := if left.typeName != right.typeName then "type mismatch: " else "unknown operator: "
      fail (problem ++ left.typeName ++ " " ++ other ++ " " ++ right.typeName) (some "Infix")

def binary (operator : String) (left right : Value) : Eval Value :=
  match left, right with
  | .integer _ left, .integer _ right => integers operator left right
  | .string _ before, .string _ behind =>
      if operator == "+" then create (.string · (before ++ behind))
      else objects operator left right
  | _, _ => objects operator left right

/-- The element of an array, `null` outside its bounds. -/
def element (left position : Value) : Eval Value :=
  match left, position with
  | .array _ items, .integer _ index =>
      if index < 0 then return .null else return (items[index.toNat]?).getD .null
  | _, _ => fail ("index operator not supported: " ++ left.typeName) (some "Index")

end MonkeyLang.Eval
