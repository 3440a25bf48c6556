import SecurityScanner.Mutation.ObjectEdits

/-!
# What the mutations of a request carry

A mutation carries one component of the request with a new value, and the override of the
method carries a header with it. The changes of a request are the components of all its
mutations, in the order of the mutators.
-/

namespace SecurityScanner

open JavaScript Fallible MutationEngine

inductive Change where
  | params (o : Obj)
  | headers (o : Obj)
  | body (o : Obj)
  | method (t : Text)
  | override (t : Text)
  | path (t : Text)

/-- A mutation without its texts. -/
def Mutation.bare (m : Mutation) : Mutation := { m with strategy := [], reason := [] }

def overrideHeaders : Obj := [(js "X-HTTP-Method-Override", .str (js "DELETE"))]

/-- The mutation that carries the change and no texts. -/
def Change.mutation : Change → Mutation
  | .params o => { params := some o, strategy := [], reason := [] }
  | .headers o => { headers := some o, strategy := [], reason := [] }
  | .body o => { body := some o, strategy := [], reason := [] }
  | .method t => { method := some t, strategy := [], reason := [] }
  | .override t =>
    { method := some t, headers := some overrideHeaders, strategy := [], reason := [] }
  | .path t => { path := some t, strategy := [], reason := [] }

namespace BodyMutator

/-- The body with all dangerous fields. -/
def massAssigned (body : Obj) : Obj :=
  dangerousFields.foldl (fun o kv => o.set (js kv.1) kv.2) body

/-- The bodies that the mutations carry. -/
def bodies (body : Obj) : List Obj :=
  (body.flatMap edits).map (fun e => e.apply body) ++ [massAssigned body]

end BodyMutator

namespace MethodMutator

/-- The other methods that `_methodSwitching` tries. -/
def switchedMethods (currMethod : Text) : List Text :=
  (["GET", "POST", "PUT", "DELETE", "PATCH", "OPTIONS", "HEAD"].map js).filter (· ≠ currMethod)

/-- The spellings that `_caseSwapping` tries. -/
def caseVariants (case : CaseMap) (currMethod : Text) : List Text :=
  case.lower currMethod :: (List.range currMethod.length).flatMap fun i =>
    let before := currMethod.take i
    let here := (currMethod.drop i).take 1
    let after := currMethod.drop (i + 1)
    [before ++ case.lower here ++ after, case.lower before ++ here ++ case.lower after]

/-- The methods of `_garbageMethod`. -/
def garbageMethods : List Text := ["HACK", "", "FAKEMETHOD", "NULL"].map js

def methodTexts (case : CaseMap) (currMethod : Text) : List Text :=
  switchedMethods currMethod ++ caseVariants case currMethod ++ garbageMethods

end MethodMutator

/-- The paths that `PathMutator` tries. -/
def PathMutator.pathTexts (case : CaseMap) (path : Text) : List Text :=
  (PathMutator.mutate case path).map fun m => m.path.getD []

section changes

variable (case : CaseMap)

def paramChanges (o : Obj) : List Change :=
  (o.flatMap (ParameterMutator.edits case)).map fun e => .params (e.apply o)

def headerChanges (o : Obj) : List Change :=
  if o = [] then []
  else (o.flatMap (HeaderMutator.edits case) ++ HeaderMutator.spoofEdits).map fun e =>
    .headers (e.apply o)

def bodyChanges (o : Obj) : List Change :=
  if o = [] then [] else (BodyMutator.bodies o).map .body

def methodChanges (t : Text) : List Change :=
  if trim t = [] then [] else (MethodMutator.methodTexts case t).map .method ++ [.override t]

def pathChanges (t : Text) : List Change :=
  if trim t = [] then [] else (PathMutator.pathTexts case t).map .path

/-- The changes of a request; a missing component is as good as an empty one. -/
def changes (request : MutationRequest) : List Change :=
  paramChanges case (request.params.getD []) ++ headerChanges case (request.headers.getD []) ++
    bodyChanges (request.body.getD []) ++ methodChanges case (request.method.getD []) ++
    pathChanges case (request.path.getD [])

end changes

section mutators

variable {copy : EngineCopy} {case : CaseMap}

/-- The mutations carry these changes, one after the other. -/
def Carry (ms : List Mutation) (cs : List Change) : Prop :=
  ms.map Mutation.bare = cs.map Change.mutation

lemma Carry.nil : Carry [] [] := rfl

lemma Carry.append {ms ns : List Mutation} {cs ds : List Change} (h : Carry ms cs)
    (h' : Carry ns ds) : Carry (ms ++ ns) (cs ++ ds) := by
  unfold Carry at *
  rw [List.map_append, List.map_append, h, h']

/-- A mutator that makes edits carries the edited objects. -/
lemma carry_of_makes {make : Obj → Text → Text → Mutation} {change : Obj → Change} {o : Obj}
    {ms : List Mutation} {es : List Edit} (h : Makes make o ms es)
    (hmake : ∀ o s r, (make o s r).bare = (change o).mutation) :
    Carry ms (es.map fun e => change (e.apply o)) := by
  have hbare : ms.map Mutation.bare = (ms.map Mutation.silent).map Mutation.bare := by
    rw [List.map_map]
    rfl
  unfold Carry
  rw [hbare, h, List.map_map, List.map_map]
  apply List.map_congr_left
  intro e _
  exact hmake _ _ _

lemma carry_params {o : Option Obj} {ms : List Mutation}
    (h : ofObject (ParameterMutator.mutate case) o = .ok ms) :
    Carry ms (paramChanges case (o.getD [])) := by
  rcases o with _ | (_ | ⟨kv, kvs⟩)
  · cases h
    exact Carry.nil
  · cases h
    exact Carry.nil
  · exact carry_of_makes (ParameterMutator.makes_mutate h) fun _ _ _ => rfl

lemma carry_headers {o : Option Obj} {ms : List Mutation}
    (h : ofObject (HeaderMutator.mutate case) o = .ok ms) :
    Carry ms (headerChanges case (o.getD [])) := by
  rcases o with _ | (_ | ⟨kv, kvs⟩)
  · cases h
    exact Carry.nil
  · cases h
    exact Carry.nil
  · unfold headerChanges
    rw [Option.getD_some, if_neg (List.cons_ne_nil kv kvs)]
    exact carry_of_makes (HeaderMutator.makes_mutate h) fun _ _ _ => rfl

lemma carry_body {o : Option Obj} {ms : List Mutation}
    (h : ofObject (BodyMutator.mutate copy) o = .ok ms) : Carry ms (bodyChanges (o.getD [])) := by
  rcases o with _ | (_ | ⟨kv, kvs⟩)
  · cases h
    exact Carry.nil
  · cases h
    exact Carry.nil
  · unfold bodyChanges BodyMutator.bodies
    rw [Option.getD_some, if_neg (List.cons_ne_nil kv kvs), List.map_append, List.map_map]
    obtain ⟨ns, rfl, hmakes⟩ := BodyMutator.makes_mutate h
    have hmass : Carry (BodyMutator.massAssignment (kv :: kvs))
        ([BodyMutator.massAssigned (kv :: kvs)].map .body) := rfl
    exact Carry.append (carry_of_makes hmakes fun _ _ _ => rfl) hmass

lemma carry_map {texts : List Text} {f : Text → Mutation} {change : Text → Change}
    (h : ∀ t, (f t).bare = (change t).mutation) : Carry (texts.map f) (texts.map change) := by
  unfold Carry
  rw [List.map_map, List.map_map]
  exact List.map_congr_left fun t _ => h t

lemma carry_method (t : Option Text) :
    Carry (ofText (MethodMutator.mutate case) t) (methodChanges case (t.getD [])) := by
  cases t with
  | none => exact Carry.nil
  | some t =>
    unfold methodChanges
    rw [Option.getD_some]
    by_cases ht : trim t = []
    · have hnone : ofText (MethodMutator.mutate case) (some t) = [] := if_neg (not_not.mpr ht)
      rw [if_pos ht, hnone]
      exact Carry.nil
    · rw [if_neg ht, ofText_some ht]
      unfold MethodMutator.methodTexts
      rw [List.map_append, List.map_append]
      have hswitched : Carry (MethodMutator.methodSwitching t)
          ((MethodMutator.switchedMethods t).map .method) := carry_map fun _ => rfl
      have hvariants : Carry (MethodMutator.caseSwapping case t)
          ((MethodMutator.caseVariants case t).map .method) := carry_map fun _ => rfl
      have hgarbage : Carry MethodMutator.garbageMethod
          (MethodMutator.garbageMethods.map .method) := rfl
      exact ((hswitched.append hvariants).append hgarbage).append rfl

/-- All mutations of a path carry a path. -/
lemma mem_pathMutate {t : Text} {m : Mutation} (hm : m ∈ PathMutator.mutate case t) :
    ∃ strategy reason p, m = PathMutator.mutation strategy reason p := by
  have happending {strategy : String} {reason : Text → Text} {payloads : List String}
      (h : m ∈ PathMutator.appending strategy reason payloads t) :
      ∃ strategy reason p, m = PathMutator.mutation strategy reason p := by
    obtain ⟨payload, -, rfl⟩ := List.mem_map.mp h
    exact ⟨_, _, _, rfl⟩
  unfold PathMutator.mutate at hm
  simp only [List.mem_append] at hm
  rcases hm with (((((hid | hextension) | hjunk) | hcase) | hslash) | htraversal) | hversion
  · unfold PathMutator.idEnumeration at hid
    split at hid
    · cases hid
    · obtain ⟨c, -, rfl⟩ := List.mem_map.mp hid
      exact ⟨_, _, _, rfl⟩
  · exact happending hextension
  · exact happending hjunk
  · obtain ⟨segment, -, rfl⟩ := List.mem_map.mp hcase
    exact ⟨_, _, _, rfl⟩
  · rw [List.mem_singleton.mp hslash]
    exact ⟨_, _, _, rfl⟩
  · exact happending htraversal
  · unfold PathMutator.versionSwitching at hversion
    split at hversion
    · cases hversion
    · obtain ⟨c, -, rfl⟩ := List.mem_map.mp hversion
      exact ⟨_, _, _, rfl⟩

lemma carry_path (t : Option Text) :
    Carry (ofText (PathMutator.mutate case) t) (pathChanges case (t.getD [])) := by
  cases t with
  | none => exact Carry.nil
  | some t =>
    unfold pathChanges
    rw [Option.getD_some]
    by_cases ht : trim t = []
    · have hnone : ofText (PathMutator.mutate case) (some t) = [] := if_neg (not_not.mpr ht)
      rw [if_pos ht, hnone]
      exact Carry.nil
    · rw [if_neg ht, ofText_some ht]
      unfold Carry PathMutator.pathTexts
      rw [List.map_map, List.map_map]
      apply List.map_congr_left
      intro m hm
      obtain ⟨strategy, reason, p, rfl⟩ := mem_pathMutate hm
      rfl

/-- All mutations of a request carry its changes. -/
lemma carry_allMutations {request : MutationRequest} {all : List Mutation}
    (h : allMutations copy case request = .ok all) : Carry all (changes case request) := by
  unfold allMutations at h
  obtain ⟨ps, hparams, -⟩ := returns_bind.mp ⟨all, h⟩
  rw [hparams, ok_bind] at h
  obtain ⟨hs, hheaders, -⟩ := returns_bind.mp ⟨all, h⟩
  rw [hheaders, ok_bind] at h
  obtain ⟨bs, hbody, -⟩ := returns_bind.mp ⟨all, h⟩
  rw [hbody, ok_bind] at h
  cases h
  exact ((((carry_params hparams).append (carry_headers hheaders)).append
    (carry_body hbody)).append (carry_method _)).append (carry_path _)

end mutators

end SecurityScanner
