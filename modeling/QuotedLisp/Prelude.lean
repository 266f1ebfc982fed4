/-!
# The prelude

Definitions in the language itself that are loaded before a program unless it asks for others:
names for truth and the empty list, a form that defines functions, and functions on lists.
-/

namespace QuotedLisp.Prelude

/-- Names for the empty list, truth and falsehood. -/
def atoms : String := "
(def {nil} {})
(def {true} 1)
(def {false} 0)
"

/-- The form that defines a function from its name, its formals and its body. -/
def definitionForm : String := "
(def {fun} (fn {f b} {
  def (head f) (fn (tail f) b)
}))
"

/-- Negation, exchange of arguments and composition. -/
def combinators : String := "
(fun {not x} {if x {false} {true}})

(fun {flip f a b} {f b a})
(fun {comp f g x} {f (g x)})
"

/-- Length, the item at an index, the last item, and reversal. -/
def listAccess : String := "
(fun {len l} {
  if (= l nil) {0} {+ 1 (len (tail l))}
})

(fun {nth n l} {
  if (= n 0) {eval (head l)} {nth (- n 1) (tail l)}
})

(fun {last l} {nth (- (len l) 1) l})

(fun {reverse l} {
  if (= l nil) {nil} {join (reverse (tail l)) (head l)}
})
"

/-- Sequencing: the last of several values. -/
def sequencing : String := "
(fun {do & l} {
  if (= l nil) {nil} {last l}
})
"

/-- The image of a list, the items that a test accepts, and the fold from the left. -/
def higherOrder : String := "
(fun {map f l} {
  if (= l nil)
    {nil}
    {join (list (f (eval (head l)))) (map f (tail l))}
})

(fun {filter f l} {
  if (= l nil)
    {nil}
    {join (if (f (eval (head l))) {head l} {nil}) (filter f (tail l))}
})

(fun {foldl f z l} {
  if (= l nil)
    {z}
    {foldl f (f z (eval (head l))) (tail l)}
})
"

/-- Sum and product of a list of numbers. -/
def totals : String := "
(fun {sum l} {foldl + 0 l})
(fun {product l} {foldl * 1 l})
"

/-- The whole prelude. -/
def source : String :=
  String.join [atoms, definitionForm, combinators, listAccess, sequencing, higherOrder, totals]

end QuotedLisp.Prelude
