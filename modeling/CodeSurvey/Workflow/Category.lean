import CodeSurvey.Text.Case

/-!
# Workflow categories

A function is put into a category by the word that its name begins with, and a group of functions
into the category that most of them have.
-/

namespace CodeSurvey.Workflow

open CodeSurvey

/-- What a function or a workflow is for. -/
inductive Category where
  | authentication
  | payment
  | notification
  | dataSync
  | validation
  | crud
  | unknown
  /-- A category outside the table, by its name. -/
  | other (name : String)
  deriving Repr, DecidableEq

namespace Category

/-- The categories of the table with their names. -/
def table : List (String × Category) :=
  [("authentication", authentication), ("payment", payment), ("notification", notification),
   ("data-sync", dataSync), ("validation", validation), ("crud", crud), ("unknown", unknown)]

/-- The name of a category. -/
def name : Category → String
  | authentication => "authentication"
  | payment => "payment"
  | notification => "notification"
  | dataSync => "data-sync"
  | validation => "validation"
  | crud => "crud"
  | unknown => "unknown"
  | other name => name

/-- The category of a name. -/
def ofName (name : String) : Category :=
  match table.find? (·.1 == name) with
  | some (_, c) => c
  | none => other name

/-- The words that tell a category, in groups. -/
def wordGroups : List (Category × List String) :=
  [(unknown, ["handle", "process"]),
   (authentication, ["auth", "login", "logout", "signup", "register", "signin", "signout"]),
   (validation, ["verify", "validate", "check"]),
   (payment, ["pay", "charge", "checkout", "purchase", "refund", "subscribe", "invoice"]),
   (notification, ["send", "notify", "email", "alert"]),
   (dataSync, ["sync", "import", "export", "migrate"]),
   (crud, ["fetch", "get", "create", "update", "delete", "remove", "save", "load", "list", "find",
     "add"])]

/-- The words with their categories, group after group. -/
def words : List (String × Category) :=
  wordGroups.flatMap fun g => g.2.map fun w => (w, g.1)

/-- The length of the longest word. -/
def longestWord : Nat := words.foldl (fun n w => max n w.1.length) 0

/-- The words with their categories, longer words first; words of one length keep their order. -/
def wordsByLength : List (String × Category) :=
  (List.range (longestWord + 1)).reverse.flatMap fun n => words.filter (·.1.length == n)

/-- What may stand before the word. -/
def leadIns : List String := ["on", "_", "do", "perform"]

/-- Whether a name begins with a word, with or without a lead-in. -/
def beginsWith (word name : String) : Bool :=
  Text.hasStart word name || leadIns.any fun lead => Text.hasStart (lead ++ word) name

/-- The category of a function by its name: that of the longest word that the name, in lower case,
begins with. -/
def ofFunctionName (name : String) : Category :=
  let lowered := Text.lower name
  match wordsByLength.find? fun w => beginsWith w.1 lowered with
  | some (_, c) => c
  | none => unknown

/-- The known category that occurs most often, the earliest of these if there are several. -/
def dominant (cs : List Category) : Category :=
  let known := cs.filter (· != unknown)
  let best := (Text.distinct known).foldl
    (fun (best : Category × Nat) c =>
      let n := known.count c
      if best.2 < n then (c, n) else best)
    (unknown, 0)
  best.1

/-- The title of the workflow that groups the functions of a category. -/
def title : Category → String
  | authentication => "Authentication"
  | payment => "Payment Processing"
  | notification => "Notifications"
  | dataSync => "Data Synchronization"
  | validation => "Validation"
  | crud => "Data Operations"
  | unknown => "Other Operations"
  | other _ => "Other Operations"

end Category

/-- The resources whose workflow has a title of its own. -/
def resourceTitles : List (String × String) :=
  [("auth", "Authentication"), ("users", "User Management"), ("user", "User Management"),
   ("posts", "Post Management"), ("post", "Post Management"),
   ("products", "Product Management"), ("product", "Product Management"),
   ("orders", "Order Management"), ("order", "Order Management"),
   ("payments", "Payment Processing"), ("payment", "Payment Processing"),
   ("checkout", "Checkout Flow"), ("cart", "Shopping Cart"),
   ("notifications", "Notifications"), ("notification", "Notifications"),
   ("settings", "Settings Management"), ("profile", "Profile Management")]

/-- The title of the workflow around a resource. -/
def resourceTitle (resource : String) : String :=
  match resourceTitles.find? (·.1 == Text.lower resource) with
  | some (_, title) => title
  | none => Text.capitalizeFirst resource ++ " Management"

end CodeSurvey.Workflow
