import Scenario.Proofs.Inheritance
import Scenario.Proofs.MutationValues

namespace Scenario

open Syntax Template
open Syntax.Node (recast)

/-- What the values of mutations are replaced by: a value for each, by the number of its call. -/
structure Revaluation where
  apply : Nat → Node → Node
  isValue_apply {i : Nat} {v : Node} : v.isValue = true → (apply i v).isValue = true

/-- The arguments of a call with its value replaced. A call that has one is counted. -/
def placeValue (f : Nat → Node → Node) (method : Option String) : List Node → StateM Nat (List Node)
  | [key, value] =>
    if isValueMethod method && value.isValue then do
      let i ← get
      set (i + 1)
      return [key, f i value]
    else return [key, value]
  | arguments => return arguments

namespace Syntax.Node

mutual

/-- A node with the values of the calls in it replaced. A call comes after those in its callee and its
arguments. -/
def placeValues (f : Nat → Node → Node) : Node → StateM Nat Node
  | .template quasis expressions => return .template quasis (← placeAll f expressions)
  | .property key value => return .property (← placeValues f key) (← placeValues f value)
  | .spread argument => return .spread (← placeValues f argument)
  | .object properties => return .object (← placeAll f properties)
  | .array elements => return .array (← placeAll f elements)
  | .parenthesized e => return .parenthesized (← placeValues f e)
  | .assertion e => return .assertion (← placeValues f e)
  | .member base name computed => return .member (← placeValues f base) (← placeValues f name) computed
  | .call callee arguments line => do
    let callee ← placeValues f callee
    let arguments ← placeAll f arguments
    return .call callee (← placeValue f (Callee.methodName? callee) arguments) line
  | .unary operator argument => return .unary operator (← placeValues f argument)
  | .binary operator left right => return .binary operator (← placeValues f left) (← placeValues f right)
  | .await argument => return .await (← placeValues f argument)
  | .arrow params body line => return .arrow (← placeAll f params) (← placeValues f body) line
  | .function name params body line =>
    return .function name (← placeAll f params) (← placeValues f body) line
  | .attribute name value => return .attribute name (← placeOption f value)
  | .spreadAttribute argument => return .spreadAttribute (← placeValues f argument)
  | .container e => return .container (← placeValues f e)
  | .element name attributes children line =>
    return .element name (← placeAll f attributes) (← placeAll f children) line
  | .fragment children line => return .fragment (← placeAll f children) line
  | .block body => return .block (← placeAll f body)
  | .expressionStatement e => return .expressionStatement (← placeValues f e)
  | .returnStatement argument => return .returnStatement (← placeOption f argument)
  | .ifStatement test consequent alternate =>
    return .ifStatement (← placeValues f test) (← placeValues f consequent) (← placeOption f alternate)
  | .switchCase test body => return .switchCase (← placeOption f test) (← placeAll f body)
  | .switchStatement discriminant cases =>
    return .switchStatement (← placeValues f discriminant) (← placeAll f cases)
  | .declarator target init => return .declarator (← placeValues f target) (← placeOption f init)
  | .variableDeclaration kind declarations =>
    return .variableDeclaration kind (← placeAll f declarations)
  | .functionDeclaration name params body line =>
    return .functionDeclaration name (← placeAll f params) (← placeValues f body) line
  | .exportNamed declaration specifiers =>
    return .exportNamed (← placeOption f declaration) (← placeAll f specifiers)
  | .exportDefault declaration => return .exportDefault (← placeValues f declaration)
  | .unsupported kind parts line => return .unsupported kind (← placeAll f parts) line
  | .program body => return .program (← placeAll f body)
  | n => return n

def placeOption (f : Nat → Node → Node) : Option Node → StateM Nat (Option Node)
  | none => return none
  | some n => return some (← placeValues f n)

def placeAll (f : Nat → Node → Node) : List Node → StateM Nat (List Node)
  | [] => return []
  | n :: more => return (← placeValues f n) :: (← placeAll f more)

end

end Syntax.Node

open Syntax.Node (placeValues placeAll placeOption)

namespace Revaluation

/-- Every value as it is. -/
def keep : Revaluation := ⟨fun _ v => v, id⟩

/-- A program with its values replaced. -/
def program (f : Revaluation) (body : List Node) : List Node := ((placeAll f.apply body).run 0).1

-- Of two calls that are the same, one gets another value.
example :
    let set (value : Node) : Node :=
      .call (.member (.identifier "s") (.identifier "set") false) [.string "a", value] 1
    let second : Revaluation :=
      ⟨fun i v => if i = 1 then .null else v, fun h => by split; exacts [by cbv, h]⟩
    second.program [set (.boolean true), set (.boolean true)] =
      [set (.boolean true), set .null] := by
  cbv

theorem run_bind {α β : Type} (m : StateM Nat α) (k : α → StateM Nat β) (i : Nat) :
    (m >>= k).run i = (k (m.run i).1).run (m.run i).2 := rfl

theorem run_pure {α : Type} (a : α) (i : Nat) : (pure a : StateM Nat α).run i = (a, i) := rfl

theorem placeValue_keep (method : Option String) (arguments : List Node) (i : Nat) :
    ((placeValue keep.apply method arguments).run i).1 = arguments := by
  unfold placeValue
  split
  · split <;> rfl
  · rfl

theorem placeValues_keep (n : Node) : ∀ i, ((placeValues keep.apply n).run i).1 = n := by
  apply @Node.rec (fun n => ∀ i, ((placeValues keep.apply n).run i).1 = n)
    (fun ns => ∀ i, ((placeAll keep.apply ns).run i).1 = ns)
    (fun o => ∀ i, ((placeOption keep.apply o).run i).1 = o)
  all_goals
    intros
    simp only [placeValues, placeAll, placeOption, run_bind, run_pure, placeValue_keep, *]

theorem program_keep (body : List Node) : keep.program body = body := by
  unfold program
  generalize 0 = i
  induction body generalizing i with
  | nil => rfl
  | cons n more ih => simp only [placeAll, run_bind, run_pure, placeValues_keep, ih]

/-- A value with the number of its call, in the form of an expression. -/
def numbered (i : Nat) (v : Node) : Node := .template (List.replicate i "") [v]

theorem isValue_numbered (i : Nat) {v : Node} (h : v.isValue = true) :
    (numbered i v).isValue = true := by
  have hp : (numbered i v).isPassive = true := by
    rw [Node.isPassive_iff]
    simp [numbered, Node.fields, Node.isActive, Node.isPassive_of_isValue h]
  rw [Node.isValue, hp]
  rfl

variable (f : Revaluation)

/-- The replacement of values that bear numbers. -/
def byNumber : Replacement where
  apply n :=
    match n with
    | .template quasis [v] => if v.isValue then f.apply quasis.length v else n
    | _ => n
  isValue_apply {n} h := by
    split
    · split
      · rename_i hv
        exact f.isValue_apply hv
      · exact h
    · exact h

theorem byNumber_numbered (i : Nat) {v : Node} (h : v.isValue = true) :
    f.byNumber.apply (numbered i v) = f.apply i v := by
  simp [byNumber, numbered, h]

theorem placeValue_eq (method : Option String) (arguments : List Node) :
    placeValue f.apply method (arguments.map (recast f.byNumber.toRecall)) =
      f.byNumber.arguments method <$> placeValue numbered method arguments := by
  match arguments with
  | [] | [_] | _ :: _ :: _ :: _ => rfl
  | [key, value] =>
    simp only [List.map_cons, List.map_nil, placeValue, Node.isValue_recast]
    split
    · rename_i h
      obtain ⟨hm, hv⟩ := Bool.and_eq_true_iff.1 h
      have hvalue := Node.recast_of_isPassive f.byNumber.toRecall (Node.isPassive_of_isValue hv)
      have hset (i : Nat) : f.byNumber.arguments method [key, numbered i value] =
          [key.recast f.byNumber.toRecall, f.apply i value] := by
        have hi := isValue_numbered i hv
        have hself := Node.recast_of_isPassive f.byNumber.toRecall (Node.isPassive_of_isValue hi)
        simp [Replacement.arguments, Replacement.put, hm, hi, hself, f.byNumber_numbered i hv]
      simp only [hvalue, map_bind, map_pure, hset]
    · rename_i h
      simp only [map_pure, Replacement.arguments, List.map_cons, List.map_nil, Replacement.put,
        Node.isValue_recast, if_neg h]

/-- To replace a value by the number of its call is to write the numbers first and then to read them. -/
theorem placeValues_eq (n : Node) :
    placeValues f.apply n = Node.revalue f.byNumber <$> placeValues numbered n := by
  unfold Node.revalue
  apply @Node.rec
    (fun n => placeValues f.apply n = recast f.byNumber.toRecall <$> placeValues numbered n)
    (fun ns => placeAll f.apply ns = List.map (recast f.byNumber.toRecall) <$> placeAll numbered ns)
    (fun o => placeOption f.apply o =
      Option.map (recast f.byNumber.toRecall) <$> placeOption numbered o)
  case call =>
    intro callee arguments line hc has
    simp only [placeValues, hc, has, bind_map_left, map_bind, map_pure, f.placeValue_eq,
      f.byNumber.recast_call, Callee.methodName?_recast]
  -- The other nodes are built from their parts in the same order.
  all_goals
    intros
    simp only [placeValues, placeAll, placeOption, map_bind, map_pure, bind_map_left, recast,
      Node.recastAll_eq_map, Node.recastOption_eq_map, List.map_nil, List.map_cons, Option.map_none,
      Option.map_some, *]

theorem placeAll_eq (ns : List Node) :
    placeAll f.apply ns = List.map (Node.revalue f.byNumber) <$> placeAll numbered ns := by
  induction ns with
  | nil => rfl
  | cons n more ih =>
    simp only [placeAll, f.placeValues_eq, ih, bind_map_left, map_bind, map_pure, List.map_cons]

/-- A program whose values bear numbers. -/
def marked (body : List Node) : List Node := ((placeAll numbered body).run 0).1

theorem program_eq (body : List Node) :
    f.program body = (marked body).map (Node.revalue f.byNumber) := by
  rw [program, placeAll_eq]
  rfl

/-- The tags and the calls of a program stay where they are. -/
theorem outline_program (body : List Node) :
    (f.program body).flatMap Node.outline = body.flatMap Node.outline := by
  have hmarked (g : Revaluation) :
      (g.program body).flatMap Node.outline = (marked body).flatMap Node.outline := by
    rw [program_eq, List.flatMap_map]
    exact List.flatMap_congr fun n _ => outline_recall n
  rw [hmarked, ← hmarked keep, program_keep]

/-- The values of all calls in a node bear numbers. -/
inductive Numbered : Node → Prop
  | intro {n : Node} :
    (∀ callee key value line, n = .call callee [key, value] line →
      isValueMethod (Callee.methodName? callee) = true → value.isValue = true →
        ∃ i v, v.isValue = true ∧ value = numbered i v) →
      (∀ c ∈ n.fields, Numbered c) → Numbered n

theorem Numbered.value {callee key value : Node} {line : Nat}
    (h : Numbered (.call callee [key, value] line))
    (hm : isValueMethod (Callee.methodName? callee) = true) (hv : value.isValue = true) :
    ∃ i v, v.isValue = true ∧ value = numbered i v := by
  cases h with
  | intro hcall _ => exact hcall callee key value line rfl hm hv

theorem Numbered.fields {n c : Node} (h : Numbered n) (hc : c ∈ n.fields) : Numbered c := by
  cases h with
  | intro _ hfields => exact hfields c hc

theorem Numbered.of_fields {n : Node} (hn : ∀ callee arguments line, n ≠ .call callee arguments line)
    (h : ∀ c ∈ n.fields, Numbered c) : Numbered n :=
  .intro (fun callee key value line heq => (hn callee [key, value] line heq).elim) h

theorem numbered_of_isPassive {n : Node} (h : n.isPassive = true) : Numbered n :=
  .of_fields (Node.ne_call_of_isPassive h) fun c hc =>
    numbered_of_isPassive ((Node.isPassive_iff.1 h).2 c hc)
termination_by sizeOf n
decreasing_by exact Node.sizeOf_lt_of_mem_fields hc

theorem inherited_numbered : Inherited Numbered Numbered fun _ body => Numbered body where
  search hn := hn
  compile hn _ := hn
  fields hn _ hc := hn.fields hc
  children hn hc := hn.fields (List.mem_filter.1 hc).1
  markup hn hc := hn.fields hc
  enter {n body params} hn hf := by
    cases n with
    | arrow | function | functionDeclaration =>
      cases hf
      exact hn.fields (by simp [Node.fields])
    | _ => cases hf
  body hbody := hbody
  statement he := .of_fields (by simp) (List.forall_mem_singleton.2 he)

/-- A call with its value numbered, if it has one. -/
theorem numbered_placeValue {callee : Node} {arguments : List Node} (line i : Nat)
    (hcallee : Numbered callee) (harguments : ∀ a ∈ arguments, Numbered a) :
    Numbered (.call callee ((placeValue numbered (Callee.methodName? callee) arguments).run i).1
      line) := by
  unfold placeValue
  split
  · rename_i key value
    obtain ⟨hkey, hvalue⟩ := List.forall_mem_cons.1 harguments
    cases hset : isValueMethod (Callee.methodName? callee) && value.isValue with
    | true =>
      have hv : value.isValue = true := (Bool.and_eq_true_iff.1 hset).2
      have hnumbered := numbered_of_isPassive (Node.isPassive_of_isValue (isValue_numbered i hv))
      refine .intro ?_ ?_
      · rintro callee' key' value' line' heq - -
        cases heq
        exact ⟨i, value, hv, rfl⟩
      · intro c hc
        obtain rfl | rfl | rfl : c = callee ∨ c = key ∨ c = numbered i value := by
          change c ∈ [callee, key, numbered i value] at hc
          simpa using hc
        · exact hcallee
        · exact hkey
        · exact hnumbered
    | false =>
      refine .intro ?_ ?_
      · rintro callee' key' value' line' heq hm hv
        cases heq
        simp [hm, hv] at hset
      · exact List.forall_mem_cons.2 ⟨hcallee, List.forall_mem_cons.2 ⟨hkey, hvalue⟩⟩
  · rename_i hpair
    refine .intro ?_ (List.forall_mem_cons.2 ⟨hcallee, harguments⟩)
    rintro callee' key' value' line' heq - -
    cases heq
    exact (hpair _ _ rfl).elim

theorem numbered_placeValues (n : Node) : ∀ i, Numbered ((placeValues numbered n).run i).1 := by
  apply @Node.rec (fun n => ∀ i, Numbered ((placeValues numbered n).run i).1)
    (fun ns => ∀ i, ∀ c ∈ ((placeAll numbered ns).run i).1, Numbered c)
    (fun o => ∀ i, ∀ c ∈ ((placeOption numbered o).run i).1, Numbered c)
  case call =>
    intro callee arguments line hcallee harguments i
    exact numbered_placeValue line _ (hcallee i) (harguments _)
  case nil =>
    intro i c hc
    cases hc
  case cons =>
    intro n more hn hmore i
    exact List.forall_mem_cons.2 ⟨hn i, hmore _⟩
  case none =>
    intro i c hc
    cases hc
  case some =>
    intro n hn i c hc
    obtain rfl : _ = c := Option.some.inj hc
    exact hn i
  all_goals
    intros
    simp only [placeValues, run_bind, run_pure]
    refine .of_fields (by simp) ?_
    simp only [Node.fields, List.forall_mem_append, List.forall_mem_cons, Option.mem_toList]
    grind

/-- The number that the value of a call bears. -/
def number? : Node → Option Nat
  | .call callee [_, .template quasis [v]] _ =>
    if isValueMethod (Callee.methodName? callee) && (Node.template quasis [v]).isValue then
      some quasis.length
    else none
  | _ => none

/-- The numbers that the values of the calls in a node bear, those of its parts first. -/
def numbers (n : Node) : List Nat :=
  (n.fields.attach.flatMap fun c => numbers c.1) ++ (number? n).toList
termination_by sizeOf n
decreasing_by exact Node.sizeOf_lt_of_mem_fields c.2

theorem numbers_eq (n : Node) : numbers n = n.fields.flatMap numbers ++ (number? n).toList := by
  rw [numbers]
  simp

theorem numbers_of_isPassive {n : Node} (h : n.isPassive = true) : numbers n = [] := by
  have hn : number? n = none := by
    unfold number?
    split
    · cases Node.ne_call_of_isPassive h _ _ _ rfl
    · rfl
  rw [numbers_eq, hn]
  simp only [Option.toList_none, List.append_nil, List.flatMap_eq_nil_iff]
  exact fun c hc => numbers_of_isPassive ((Node.isPassive_iff.1 h).2 c hc)
termination_by sizeOf n
decreasing_by exact Node.sizeOf_lt_of_mem_fields hc

/-- The numbers from one on to another one, in order. -/
def Span (i j : Nat) (ns : List Nat) : Prop := i ≤ j ∧ ns = List.range' i (j - i)

theorem Span.refl (i : Nat) : Span i i [] := by simp [Span]

theorem Span.trans {i j k : Nat} {ms ns : List Nat} (hm : Span i j ms) (hn : Span j k ns) :
    Span i k (ms ++ ns) := by
  obtain ⟨hij, rfl⟩ := hm
  obtain ⟨hjk, rfl⟩ := hn
  refine ⟨hij.trans hjk, ?_⟩
  have hstart : List.range' j (k - j) = List.range' (i + 1 * (j - i)) (k - j) := by
    congr 1
    omega
  rw [hstart, List.range'_append]
  congr 1
  omega

theorem numbers_of_fields {n : Node} (hn : ∀ callee arguments line, n ≠ .call callee arguments line) :
    numbers n = n.fields.flatMap numbers := by
  have hnone : number? n = none := by
    unfold number?
    split
    · exact (hn _ _ _ rfl).elim
    · rfl
  rw [numbers_eq, hnone]
  simp

/-- A call whose value is numbered, if it has one, bears the next number behind its parts. -/
theorem span_placeValue {callee : Node} {arguments : List Node} {i j : Nat} (line : Nat)
    (h : Span i j (numbers callee ++ arguments.flatMap numbers)) :
    Span i ((placeValue numbered (Callee.methodName? callee) arguments).run j).2
      (numbers (.call callee ((placeValue numbered (Callee.methodName? callee) arguments).run j).1
        line)) := by
  unfold placeValue
  split
  · rename_i key value
    cases hset : isValueMethod (Callee.methodName? callee) && value.isValue with
    | true =>
      obtain ⟨hm, hv⟩ := Bool.and_eq_true_iff.1 hset
      have hvalue := numbers_of_isPassive (Node.isPassive_of_isValue hv)
      have hnumbered := numbers_of_isPassive (Node.isPassive_of_isValue (isValue_numbered j hv))
      have hbears : number? (.call callee [key, numbered j value] line) = some j := by
        have hi := isValue_numbered j hv
        rw [numbered] at hi ⊢
        simp [number?, hm, hi]
      have hparts : Span i j (numbers callee ++ numbers key) := by simpa [hvalue] using h
      have hnext : Span j (j + 1) [j] := by simp [Span]
      change Span i (j + 1) (numbers (.call callee [key, numbered j value] line))
      rw [numbers_eq, hbears]
      simpa [Node.fields, hnumbered] using hparts.trans hnext
    | false =>
      have hbears : number? (.call callee [key, value] line) = none := by
        unfold number?
        split
        · rename_i heq
          cases heq
          simp [hset]
        · rfl
      change Span i j (numbers (.call callee [key, value] line))
      rw [numbers_eq, hbears]
      simpa [Node.fields] using h
  · rename_i hpair
    have hbears : number? (.call callee arguments line) = none := by
      unfold number?
      split
      · rename_i heq
        cases heq
        exact (hpair _ _ rfl).elim
      · rfl
    change Span i j (numbers (.call callee arguments line))
    rw [numbers_eq, hbears]
    simpa [Node.fields] using h

theorem span_placeValues (n : Node) :
    ∀ i, Span i ((placeValues numbered n).run i).2 (numbers ((placeValues numbered n).run i).1) := by
  apply @Node.rec
    (fun n => ∀ i, Span i ((placeValues numbered n).run i).2
      (numbers ((placeValues numbered n).run i).1))
    (fun ns => ∀ i, Span i ((placeAll numbered ns).run i).2
      (((placeAll numbered ns).run i).1.flatMap numbers))
    (fun o => ∀ i, Span i ((placeOption numbered o).run i).2
      (((placeOption numbered o).run i).1.toList.flatMap numbers))
  case call =>
    intro callee arguments line hcallee harguments i
    exact span_placeValue line ((hcallee i).trans (harguments _))
  case nil | none => exact Span.refl
  case cons =>
    intro n more hn hmore i
    exact (hn i).trans (hmore _)
  case some =>
    intro n hn i
    have hsome : (placeOption numbered (some n)).run i =
        (some ((placeValues numbered n).run i).1, ((placeValues numbered n).run i).2) := rfl
    rw [hsome, Option.toList_some, List.flatMap_singleton]
    exact hn i
  all_goals
    intros
    rw [numbers_of_fields (by simp [placeValues])]
    simp only [placeValues, run_bind, run_pure, Node.fields,
      List.flatMap_append, List.flatMap_cons, List.flatMap_nil, List.append_nil]
    grind [Span.refl, Span.trans]

theorem numbers_marked (body : List Node) :
    ∃ count, (marked body).flatMap numbers = List.range count := by
  have hspan (ns : List Node) (i : Nat) : Span i ((placeAll numbered ns).run i).2
      (((placeAll numbered ns).run i).1.flatMap numbers) := by
    induction ns generalizing i with
    | nil => exact Span.refl i
    | cons n more ih => exact (span_placeValues n i).trans (ih _)
  obtain ⟨-, hrange⟩ := hspan body 0
  exact ⟨_, hrange.trans List.range_eq_range'.symm⟩

theorem numbered_of_mem_marked {body : List Node} : ∀ n ∈ marked body, Numbered n := by
  unfold marked
  generalize 0 = i
  induction body generalizing i with
  | nil => exact fun n hn => nomatch hn
  | cons n more ih => exact List.forall_mem_cons.2 ⟨numbered_placeValues n i, ih _⟩

/-- A call with a number that is left open in a template gives it its kind, its store, its path and its
value. -/
theorem exists_numbered_of_leavesOpen {s : Scope} {n : Node} {p : Place} {t : Template}
    (hn : Numbered n) (hp : (Place.node s n).Reaches p) (ht : p.LeavesOpen t) :
    ∃ s' store method key i v line,
      p = .call s' (.mutation store (some method)) [key, numbered i v] line ∧
      ∀ f : Revaluation, (fill f.byNumber t).IsChange s' store method key (f.apply i v) := by
  have hstart : (Place.node s n).Has Numbered Numbered fun _ body => Numbered body := hn
  have hnumbered := hstart.of_reaches inherited_numbered hp
  cases ht with
  | @intro s' store method key value line _ hm hvalue hchange =>
    obtain ⟨callee, hcall, hname⟩ := hnumbered
    have hm' : isValueMethod (Callee.methodName? callee) = true := by rwa [hname store _ rfl]
    obtain ⟨i, v, hv, rfl⟩ := hcall.value hm' hvalue
    refine ⟨s', store, method, key, i, v, line, rfl, fun f => ?_⟩
    rw [← f.byNumber_numbered i hv]
    exact hchange f.byNumber

/-- Values of mutations are inert. The actions of a program come from templates in which some values are
left open; whatever the values of its calls are replaced by, these are filled in, and nothing else of
what is extracted changes. Each opening is a change that a single call describes, found by its number:
the change has the kind, the store and the path of the call, and its value is the new value of this call,
read where the call stands. No two calls have the same number. -/
theorem extract_program (options : Options) (body : List Node) :
    ∃ templates : List Template,
      (extract options body).parts.actions = fills keep.byNumber templates ∧
      (∀ f : Revaluation, extract options (f.program body) =
        (extract options body).withActions (fills f.byNumber templates)) ∧
      (∃ count, (marked body).flatMap numbers = List.range count) ∧
      ∀ t ∈ openingsAll templates, ∃ n ∈ marked body, ∃ s store method key i v line,
        (Place.node (Scope.module.hoist (marked body)) n).Reaches
          (.call s (.mutation store (some method)) [key, numbered i v] line) ∧
        ∀ f : Revaluation, (fill f.byNumber t).IsChange s store method key (f.apply i v) := by
  obtain ⟨e, templates, hsourced, h⟩ := exists_extract_revalue options (marked body)
  have hprogram (f : Revaluation) :
      extract options (f.program body) = e.withActions (fills f.byNumber templates) := by
    rw [program_eq, h]
  have hbody : extract options body = e.withActions (fills keep.byNumber templates) := by
    rw [← hprogram, program_keep]
  refine ⟨templates, ?_, fun f => ?_, numbers_marked body, fun t ht => ?_⟩
  · rw [hbody]
    rfl
  · rw [hprogram, hbody]
    rfl
  · obtain ⟨q, hq, p, hp, hopen⟩ := hsourced t ht
    obtain ⟨n, hn, rfl⟩ := List.mem_map.1 hq
    obtain ⟨s, store, method, key, i, v, line, rfl, hchange⟩ :=
      exists_numbered_of_leavesOpen (numbered_of_mem_marked n hn) hp hopen
    exact ⟨n, hn, s, store, method, key, i, v, line, hp, hchange⟩

end Revaluation

end Scenario
