import WebOfThings.Json.Basic

/-!
# Outlines

A reader that knows only some members of an object passes over the others. They have to be JSON text, but
nothing is made of them: their numerals may lie beyond the doubles, their strings may hold halves of
surrogate pairs, and they may be nested as deep as they like. An *outline* says what a reader wants of a
value.

Whether a member is passed over is the choice of the reader, and it differs between records. One that knows
all of its fields in advance reads straight from the text and skips the others. One that keeps further
members, or is written flat into the object of another, has to read everything first. So the same text may
be fine in a form and a fault beside it; `Shape.outline` and `Thing.outline` say which is which.

`add` builds the members of an object while it is read: a member that is not wanted is not kept.
-/

namespace WebOfThings.Json

/-- What a reader wants of a value. -/
inductive Outline where
  /-- All of it. -/
  | all
  /-- Nothing. -/
  | nothing
  /-- The items of an array, each of them in outline. -/
  | items (each : Outline)
  /-- All members of an object, some of them in outline. -/
  | members (known : List (String × Outline))
  /-- The known members of an object only, or the items of an array in the same order. -/
  | record (known : List (String × Outline))

namespace Outline

/-- The record of fields that are wanted as they are. -/
def ofFields (names : List String) : Outline := .record (names.map (·, .all))

/-- Whether nothing is wanted. -/
def isNothing : Outline → Bool
  | nothing => true
  | _ => false

/-- What is wanted of the member under a key. -/
def member (o : Outline) (key : String) : Outline :=
  match o with
  | nothing => nothing
  | members known => (Dict.get? key known).getD all
  | record known => (Dict.get? key known).getD nothing
  | _ => all

/-- What is wanted of the item that follows others in an array. -/
def itemAfter (o : Outline) (before : List Json) : Outline :=
  match o with
  | nothing => nothing
  | items each => each
  | record known => (known[before.length]?.map Prod.snd).getD all
  | _ => all

/-- The value of a token. Where nothing is wanted, one that denotes nothing will do. -/
def value? (o : Outline) (v : Option Json) : Option Json :=
  if o.isNothing then some (v.getD .null) else v

/-- The key of a token. Where nothing is wanted, one that denotes nothing will do. -/
def key? (o : Outline) (key : Option String) : Option String :=
  if o.isNothing then some (key.getD "") else key

/-- The members of an object, the last one first, with one more if it is wanted. -/
def add (o : Outline) (key : String) (v : Json) (members : List (String × Json)) :
    List (String × Json) :=
  if (o.member key).isNothing then members else (key, v) :: members

end Outline
end WebOfThings.Json
