import Mathlib.Data.List.Forall2
import Mathlib.Logic.Relation
import Scenario.Proofs.Trees
import Scenario.Proofs.Wrappers

namespace Scenario.Syntax

namespace Node

/-- A node with other nodes in its fields, in the order of `fields`. -/
def withFields : Node → List Node → Node
  | .template quasis _, fs => .template quasis fs
  | .property _ _, fs => .property (fs.getD 0 .absent) (fs.getD 1 .absent)
  | .spread _, fs => .spread (fs.getD 0 .absent)
  | .object _, fs => .object fs
  | .array _, fs => .array fs
  | .parenthesized _, fs => .parenthesized (fs.getD 0 .absent)
  | .assertion _, fs => .assertion (fs.getD 0 .absent)
  | .member _ _ computed, fs => .member (fs.getD 0 .absent) (fs.getD 1 .absent) computed
  | .call _ _ line, fs => .call (fs.getD 0 .absent) (fs.drop 1) line
  | .unary operator _, fs => .unary operator (fs.getD 0 .absent)
  | .binary operator _ _, fs => .binary operator (fs.getD 0 .absent) (fs.getD 1 .absent)
  | .await _, fs => .await (fs.getD 0 .absent)
  | .arrow _ _ line, fs => .arrow fs.dropLast (fs.getLastD .absent) line
  | .function name _ _ line, fs => .function name fs.dropLast (fs.getLastD .absent) line
  | .attribute name value, fs => .attribute name (value.map fun _ => fs.getD 0 .absent)
  | .spreadAttribute _, fs => .spreadAttribute (fs.getD 0 .absent)
  | .container _, fs => .container (fs.getD 0 .absent)
  | .element name attributes _ line, fs =>
    .element name (fs.take attributes.length) (fs.drop attributes.length) line
  | .fragment _ line, fs => .fragment fs line
  | .block _, fs => .block fs
  | .expressionStatement _, fs => .expressionStatement (fs.getD 0 .absent)
  | .returnStatement argument, fs => .returnStatement (argument.map fun _ => fs.getD 0 .absent)
  | .ifStatement _ _ alternate, fs =>
    .ifStatement (fs.getD 0 .absent) (fs.getD 1 .absent) (alternate.map fun _ => fs.getD 2 .absent)
  | .switchCase test _, fs =>
    .switchCase (test.map fun _ => fs.getD 0 .absent) (fs.drop test.toList.length)
  | .switchStatement _ _, fs => .switchStatement (fs.getD 0 .absent) (fs.drop 1)
  | .declarator _ init, fs => .declarator (fs.getD 0 .absent) (init.map fun _ => fs.getD 1 .absent)
  | .variableDeclaration kind _, fs => .variableDeclaration kind fs
  | .functionDeclaration name _ _ line, fs =>
    .functionDeclaration name fs.dropLast (fs.getLastD .absent) line
  | .exportNamed declaration _, fs =>
    .exportNamed (declaration.map fun _ => fs.getD 0 .absent) (fs.drop declaration.toList.length)
  | .exportDefault _, fs => .exportDefault (fs.getD 0 .absent)
  | .unsupported kind _ line, fs => .unsupported kind fs line
  | .program _, fs => .program fs
  | n, _ => n

theorem withFields_fields (n : Node) : n.withFields n.fields = n := by
  cases n with
  | «attribute» name value => cases value <;> rfl
  | returnStatement argument => cases argument <;> rfl
  | ifStatement test consequent alternate => cases alternate <;> rfl
  | switchCase test body => cases test <;> rfl
  | declarator target init => cases init <;> rfl
  | exportNamed declaration specifiers => cases declaration <;> rfl
  | _ => simp [withFields, fields]

end Node

/-- One replacement among the things between two tags: a fragment, by itself or in braces, becomes what
stands in it, and empty braces become nothing. -/
inductive Dissolves : List Node → List Node → Prop where
  | fragment (before children after : List Node) (line : Nat) :
    Dissolves (before ++ .fragment children line :: after) (before ++ children ++ after)
  | braces {e : Node} {line : Nat} (before children after : List Node) :
    e.unwrap = .fragment children line →
    Dissolves (before ++ .container e :: after) (before ++ children ++ after)
  | empty (before after : List Node) :
    Dissolves (before ++ .container .absent :: after) (before ++ after)

/-- One replacement between two tags at any depth of a node. -/
inductive Simplifies : Node → Node → Prop where
  | element {children children' : List Node} (name : String) (attributes : List Node) (line : Nat) :
    Dissolves children children' →
    Simplifies (.element name attributes children line) (.element name attributes children' line)
  | fragment {children children' : List Node} (line : Nat) : Dissolves children children' →
    Simplifies (.fragment children line) (.fragment children' line)
  | inside {n c c' : Node} (before after : List Node) : n.fields = before ++ c :: after →
    Simplifies c c' → Simplifies n (n.withFields (before ++ c' :: after))

end Scenario.Syntax

namespace Scenario

open Syntax

namespace Notes

theorem append_assoc (l m n : Notes) : l ++ m ++ n = l ++ (m ++ n) := by
  change append (append l m) n = append l (append m n)
  simp [append]

end Notes

namespace Content

theorem append_assoc (c d e : Content) : c ++ d ++ e = c ++ (d ++ e) := by
  change append (append c d) e = append c (append d e)
  simp [append, Notes.append_assoc]

theorem nil_append (c : Content) : ({} : Content) ++ c = c := rfl

end Content

namespace TreeContext

variable (t : TreeContext)

theorem content_append (ms ns : List Node) :
    t.content (ms ++ ns) = t.content ms ++ t.content ns := by
  induction ms with
  | nil => rfl
  | cons m more ih => rw [List.cons_append, content, content, ih, Content.append_assoc]

theorem innerContent_unwrap (e : Node) : t.innerContent e.unwrap = t.innerContent e := by
  fun_induction Node.unwrap e with
  | case1 e ih | case2 e ih | case3 e ih =>
    rw [ih]
    simp only [innerContent]
  | case4 e => rfl

/-- A replacement between tags does not change what stands there. -/
theorem content_of_dissolves {children children' : List Node} (h : Dissolves children children') :
    t.content children' = t.content children := by
  cases h with
  | fragment before inside after line =>
    rw [content_append, content_append, content_append, content, childContent, Content.append_assoc]
  | braces before inside after he =>
    rw [content_append, content_append, content_append, content, childContent, ← innerContent_unwrap,
      he, innerContent, Content.append_assoc]
  | empty before after =>
    have hempty : t.childContent (.container .absent) = {} := rfl
    rw [content_append, content_append, content, hempty, Content.nil_append]

/-- The members that an attribute of a name holds. -/
def namedMembers (name : String) : Node → Option (Fields Value)
  | .attribute n value =>
    if n == name then some ((value.bind fun v => (staticValue t.props v).plainObject?).getD []) else none
  | _ => none

theorem objectAttribute_eq (attributes : List Node) (name : String) :
    t.objectAttribute attributes name =
      ((attributes.map (t.namedMembers name)).reverse.findSome? id).getD [] := by
  rw [← List.map_reverse, List.findSome?_map, Function.id_comp]
  unfold objectAttribute Node.attribute?
  induction attributes.reverse with
  | nil => rfl
  | cons n more ih =>
    cases n with
    | «attribute» other value =>
      by_cases hname : other == name
      · cases value <;> simp [namedMembers, hname]
      · simpa [namedMembers, hname] using ih
    | _ => exact ih

/-- Nothing that a tree is built with tells two nodes apart, wherever they stand. -/
structure Alike (n n' : Node) : Prop where
  value : staticValue t.props n' = staticValue t.props n
  key : memberName n' = memberName n
  spread : isSpread n' = isSpread n
  members (acc : Fields Value) : staticMembers t.props [n'] acc = staticMembers t.props [n] acc
  attributes (name : String) : t.namedMembers name n' = t.namedMembers name n
  between : t.childContent n' = t.childContent n
  inside : t.innerContent n' = t.innerContent n
  tree : t.build n' = t.build n

variable {t}

theorem Alike.refl (n : Node) : t.Alike n n :=
  ⟨rfl, rfl, rfl, fun _ => rfl, fun _ => rfl, rfl, rfl, rfl⟩

theorem staticMembers_cons (props : List String) (n : Node) (more : List Node) (acc : Fields Value) :
    staticMembers props (n :: more) acc = staticMembers props more (staticMembers props [n] acc) := by
  cases n <;> rfl

section Lists

variable {ns ns' : List Node} (h : List.Forall₂ t.Alike ns ns')

include h

theorem staticMembers_of_alike (acc : Fields Value) :
    staticMembers t.props ns' acc = staticMembers t.props ns acc := by
  induction h generalizing acc with
  | nil => rfl
  | cons hn _ ih =>
    rw [staticMembers_cons, hn.members, ih]
    exact (staticMembers_cons _ _ _ acc).symm

theorem staticElements_of_alike :
    staticElements t.props ns' = staticElements t.props ns := by
  induction h with
  | nil => rfl
  | cons hn _ ih => rw [staticElements_cons, staticElements_cons, hn.spread, hn.value, ih]

theorem objectAttribute_of_alike (name : String) :
    t.objectAttribute ns' name = t.objectAttribute ns name := by
  have hmap : ns'.map (t.namedMembers name) = ns.map (t.namedMembers name) := by
    induction h with
    | nil => rfl
    | cons hn _ ih => rw [List.map_cons, List.map_cons, hn.attributes, ih]
  rw [objectAttribute_eq, objectAttribute_eq, hmap]

theorem content_of_alike : t.content ns' = t.content ns := by
  induction h with
  | nil => rfl
  | cons hn _ ih => rw [content, content, hn.between, ih]

theorem alike_getD (i : Nat) : t.Alike (ns.getD i .absent) (ns'.getD i .absent) := by
  induction h generalizing i with
  | nil => exact .refl _
  | cons hn _ ih =>
    cases i with
    | zero => exact hn
    | succ i => exact ih i

end Lists

theorem shownText_congr {n n' : Node} (h : staticValue t.props n' = staticValue t.props n) :
    t.shownText n' = t.shownText n := by
  rw [shownText, shownText, h]

theorem alike_element {attributes attributes' children children' : List Node}
    (hattributes : ∀ name, t.objectAttribute attributes' name = t.objectAttribute attributes name)
    (hchildren : t.content children' = t.content children) (name : String) (line : Nat) :
    t.Alike (.element name attributes children line) (.element name attributes' children' line) := by
  have hcomponent : t.component name attributes' line (t.content children') =
      t.component name attributes line (t.content children) := by
    simp only [component, style, hattributes, hchildren]
  refine ⟨rfl, rfl, rfl, fun _ => rfl, fun _ => rfl, ?_, ?_, hcomponent⟩
  · rw [childContent, childContent, hcomponent]
  · rw [innerContent, innerContent, hcomponent]

theorem alike_fragment {children children' : List Node}
    (hchildren : t.content children' = t.content children) (line : Nat) :
    t.Alike (.fragment children line) (.fragment children' line) := by
  refine ⟨rfl, rfl, rfl, fun _ => rfl, fun _ => rfl, ?_, ?_, ?_⟩
  · rw [childContent, childContent, hchildren]
  · rw [innerContent, innerContent, hchildren]
  · rw [build, build, hchildren]

/-- Nodes that are alike in their fields and the same otherwise are alike. -/
theorem alike_withFields (n : Node) {fs fs' : List Node} (h : List.Forall₂ t.Alike fs fs') :
    t.Alike (n.withFields fs) (n.withFields fs') := by
  have hfirst := alike_getD h 0
  have hsecond := alike_getD h 1
  cases n with
  | element name attributes children line =>
    exact alike_element (objectAttribute_of_alike (List.forall₂_take _ h))
      (content_of_alike (List.forall₂_drop _ h)) name line
  | fragment children line => exact alike_fragment (content_of_alike h) line
  | container e =>
    refine ⟨?_, rfl, rfl, fun _ => rfl, fun _ => rfl, ?_, ?_, rfl⟩
    · simpa only [Node.withFields, staticValue] using hfirst.value
    · simpa only [Node.withFields, childContent] using hfirst.inside
    · simpa only [Node.withFields, innerContent] using hfirst.inside
  | parenthesized e =>
    have hvalue : staticValue t.props (.parenthesized (fs'.getD 0 .absent)) =
        staticValue t.props (.parenthesized (fs.getD 0 .absent)) := by
      simpa only [staticValue] using hfirst.value
    refine ⟨hvalue, rfl, rfl, fun _ => rfl, fun _ => rfl, shownText_congr hvalue, ?_, rfl⟩
    simpa only [Node.withFields, innerContent] using hfirst.inside
  | assertion e =>
    have hvalue : staticValue t.props (.assertion (fs'.getD 0 .absent)) =
        staticValue t.props (.assertion (fs.getD 0 .absent)) := by
      simpa only [staticValue] using hfirst.value
    refine ⟨hvalue, rfl, rfl, fun _ => rfl, fun _ => rfl, shownText_congr hvalue, ?_, rfl⟩
    simpa only [Node.withFields, innerContent] using hfirst.inside
  | object properties =>
    have hvalue : staticValue t.props (.object fs') = staticValue t.props (.object fs) := by
      rw [staticValue, staticValue, staticMembers_of_alike h]
    exact ⟨hvalue, rfl, rfl, fun _ => rfl, fun _ => rfl, shownText_congr hvalue,
      shownText_congr hvalue, rfl⟩
  | array elements =>
    have hvalue : staticValue t.props (.array fs') = staticValue t.props (.array fs) := by
      rw [staticValue, staticValue, staticElements_of_alike h]
    exact ⟨hvalue, rfl, rfl, fun _ => rfl, fun _ => rfl, shownText_congr hvalue,
      shownText_congr hvalue, rfl⟩
  | property key value =>
    refine ⟨rfl, rfl, rfl, ?_, fun _ => rfl, rfl, rfl, rfl⟩
    intro acc
    simp only [Node.withFields, staticMembers, hfirst.key, hsecond.value]
  | «attribute» name value =>
    refine ⟨rfl, rfl, rfl, fun _ => rfl, ?_, rfl, rfl, rfl⟩
    intro other
    cases value with
    | none => rfl
    | some value => simp only [Node.withFields, namedMembers, Option.map, Option.bind, hfirst.value]
  | _ => exact ⟨rfl, rfl, rfl, fun _ => rfl, fun _ => rfl, rfl, rfl, rfl⟩

/-- One replacement, at any depth, is seen nowhere. -/
theorem alike_of_simplifies (t : TreeContext) {n n' : Node} (h : Simplifies n n') : t.Alike n n' := by
  induction h with
  | element name attributes line h =>
    exact alike_element (fun _ => rfl) (t.content_of_dissolves h) name line
  | fragment line h => exact alike_fragment (t.content_of_dissolves h) line
  | @inside n c c' before after hfields _ ih =>
    have hall : List.Forall₂ t.Alike n.fields (before ++ c' :: after) := by
      rw [hfields]
      have hsame (ns : List Node) : List.Forall₂ t.Alike ns ns :=
        List.forall₂_same.2 fun x _ => .refl x
      exact List.rel_append (hsame before) (.cons ih (hsame after))
    have halike := alike_withFields n hall
    rwa [n.withFields_fields] at halike

/-- Fragments and empty braces between tags leave no trace: nodes that differ by replacements of this kind
have the same tree, the same reports and the same children that are dropped. -/
theorem build_eq_of_simplifies (t : TreeContext) {n n' : Node}
    (h : Relation.EqvGen Simplifies n n') : t.build n' = t.build n := by
  induction h with
  | rel _ _ hstep => exact (t.alike_of_simplifies hstep).tree
  | refl _ => rfl
  | symm _ _ _ ih => exact ih.symm
  | trans _ _ _ _ _ hfirst hsecond => exact hsecond.trans hfirst

/-- Empty braces, a fragment in braces, and a fragment in an element that drops what stands in it. -/
theorem build_eq_of_simplifies_gallery :
    let t : TreeContext := ⟨{}, [], []⟩
    let image (inside : List Node) : Node := .element "Image" [] inside 3
    let title (inside : List Node) : Node := .element "Text" [] inside 2
    let badge : Node := .element "Badge" [] [] 3
    let n : Node := .element "Column" []
      [.container .absent, .container (.parenthesized (.fragment [title [.text "a", .container .absent]] 2)),
        image [.fragment [badge] 3]] 1
    let n' : Node := .element "Column" [] [title [.text "a"], image [badge]] 1
    Relation.EqvGen Simplifies n n' ∧ t.build n' = t.build n ∧
      (t.build n).1.children.map (·.type) = ["Text", "Image"] ∧
      (t.build n).2.dropped.map (·.count) = [1] ∧
      (t.build n).2.diagnostics.map (·.code) = [.unknownComponent] := by
  intro t image title badge n n'
  have hread : (t.build n).1.children.map (·.type) = ["Text", "Image"] ∧
      (t.build n).2.dropped.map (·.count) = [1] ∧
      (t.build n).2.diagnostics.map (·.code) = [.unknownComponent] := by
    decide +kernel +revert
  have hbraces : Simplifies n (.element "Column" []
      [.container (.parenthesized (.fragment [title [.text "a", .container .absent]] 2)),
        image [.fragment [badge] 3]] 1) :=
    .element "Column" [] 1 (.empty [] _)
  have hfragment : Simplifies (.element "Column" []
      [.container (.parenthesized (.fragment [title [.text "a", .container .absent]] 2)),
        image [.fragment [badge] 3]] 1)
      (.element "Column" [] [title [.text "a", .container .absent], image [.fragment [badge] 3]] 1) :=
    .element "Column" [] 1 (.braces [] [_] _ rfl)
  have htitle : Simplifies
      (.element "Column" [] [title [.text "a", .container .absent], image [.fragment [badge] 3]] 1)
      (.element "Column" [] [title [.text "a"], image [.fragment [badge] 3]] 1) :=
    .inside [] _ rfl (.element "Text" [] 2 (.empty [.text "a"] []))
  have himage : Simplifies (.element "Column" [] [title [.text "a"], image [.fragment [badge] 3]] 1) n' :=
    .inside [title [.text "a"]] [] rfl (.element "Image" [] 3 (.fragment [] [badge] [] 3))
  have h : Relation.EqvGen Simplifies n n' :=
    .trans _ _ _ (.rel _ _ hbraces) (.trans _ _ _ (.rel _ _ hfragment)
      (.trans _ _ _ (.rel _ _ htitle) (.rel _ _ himage)))
  exact ⟨h, build_eq_of_simplifies t h, hread⟩

end TreeContext

end Scenario
