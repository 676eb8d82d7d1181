import ObjectPath.Proofs.Barring
import ObjectPath.Proofs.Discerning
import ObjectPath.Proofs.Ordering
import ObjectPath.Proofs.Storing

/-!
# Listings and lookups

A listing and the lookups go their own ways through the declarations and through what holds the
members of a class.  They agree nevertheless: a listing has for each name what
`Graph.listed?` says, which is the field that a lookup finds or a method that a lookup finds for
the arguments its schemas accept.
-/

namespace ObjectPath

open Graph

/-! ## Own keys -/

namespace Key

theorem mem_arrange {α : Type} {slots : List (Key × α)} {slot : Key × α} :
    slot ∈ arrange slots ↔ slot ∈ slots := by
  obtain ⟨key, content⟩ := slot
  cases key <;> simp [arrange]

/-- Of all keys that are what their texts write, one has a given text. -/
theorem eq_ofText_iff {key : Key} (written : ofText key.text = key) (name : String) :
    key.text = name ↔ key = ofText name := by
  constructor
  · intro same
    rw [← same, written]
  · intro same
    rw [same, text_ofText]

end Key

theorem mem_arrange_keys (slots : List (Key × Property)) (key : Key) :
    key ∈ (Key.arrange slots).map (·.1) ↔ (Entries.get? slots key).isSome = true := by
  rw [← Option.ne_none_iff_isSome, Ne, Entries.get?_eq_none_iff, not_not]
  simp only [List.mem_map, Key.mem_arrange]

theorem mem_textKeys (text : String) (key : Key) :
    key ∈ (List.range (Text.unitLength text)).map Key.index ++ [.name "length"] ↔
      (textOwn? text key).isSome = true := by
  cases key with
  | index position => simp [textOwn?, Text.unitText?, Text.unitLength]
  | name other =>
      by_cases same : other = "length"
      · simp [same, textOwn?]
      · simp [same, textOwn?]

/-- The keys of an object are those under which it has own members. -/
theorem Object.mem_keys (object : Object) (key : Key) :
    key ∈ object.keys ↔ (object.own? key).isSome = true := by
  have slots := mem_arrange_keys object.slots key
  obtain ⟨parent, body, entries, extensible⟩ := object
  cases body with
  | items length resizable =>
      by_cases isLength : key = .name "length"
      · simp [keys, own?, intrinsic?, isLength]
      · simpa [keys, own?, intrinsic?, isLength] using slots
  | boxed content =>
      cases content with
      | string text =>
          have texts := mem_textKeys text key
          rw [List.mem_append] at texts
          simp only [keys, own?, intrinsic?, List.mem_append]
          cases own : textOwn? text key with
          | some property =>
              rw [own] at texts
              simp only [Option.isSome_some, iff_true] at texts ⊢
              exact texts.imp Or.inl id
          | none =>
              rw [own] at texts
              simp only [Option.isSome_none, Bool.false_eq_true, iff_false, not_or] at texts
              simp only [texts.1, texts.2, false_or, or_false]
              exact slots
      | _ => exact slots
  | _ => exact slots

theorem Graph.mem_ownKeys (graph : Graph) (value : Value) (key : Key) :
    key ∈ graph.ownKeys value ↔ (graph.own? value key).isSome = true := by
  cases value with
  | object place =>
      simp only [ownKeys, own?, ownAt?]
      cases graph.object? place with
      | none => simp
      | some object => exact object.mem_keys key
  | string text => exact mem_textKeys text key
  | _ => simp [ownKeys, own?]

/-! ## Members of holders -/

/-- The method that a function of a holder is. -/
def functionMember (methods : List (String × MethodDeclaration)) (owner : Value) (scope : Scope)
    (name : String) (callee : Value) : MethodMember :=
  match Entries.get? methods name with
  | some declaration =>
      ⟨name, owner, declaration.returnType, scope, true, .call callee declaration.schemas⟩
  | none => ⟨name, owner, openType, scope, false, .call callee []⟩

theorem memberOf_of_simple {graph : Graph} {property : Property}
    (simple : holdsFunction graph property = false)
    (methods : List (String × MethodDeclaration)) (owner : Value) (scope : Scope) (name : String) :
    memberOf graph methods owner scope name property = .field (openField owner name scope) := by
  cases property with
  | accessor getter setter enumerable configurable => rfl
  | data content flags => exact if_neg (Bool.eq_false_iff.1 simple)

theorem memberOf_of_function {graph : Graph} {property : Property}
    (function : holdsFunction graph property = true)
    (methods : List (String × MethodDeclaration)) (owner : Value) (scope : Scope) (name : String) :
    ∃ callee flags, property = .data callee flags ∧ graph.isCallable callee = true ∧
      memberOf graph methods owner scope name property =
        .method (functionMember methods owner scope name callee) := by
  cases property with
  | accessor getter setter enumerable configurable => cases function
  | data callee flags =>
      have callable : graph.isCallable callee = true := function
      refine ⟨callee, flags, rfl, callable, ?_⟩
      simp only [memberOf, functionMember, callable, if_true]
      cases Entries.get? methods name <;> rfl

/-! ## What a listing has -/

section Listing

variable {graph : Graph} {owner : Value} {scope : Scope}

/-- The names under which the members of a class are found are written in one way each: an own key
of a holder is the one that its text writes, a field is declared under its own name, and all these
texts are settled. -/
structure Graph.Spelled (graph : Graph) (owner : Value) (scope : Scope) : Prop where
  keys : ∀ holder ∈ holdersFrom graph (graph.holder owner scope) scope,
    ∀ key ∈ graph.ownKeys holder, Key.ofText key.text = key ∧ Text.settle key.text = key.text
  fields : ∀ entry ∈ graph.fields owner scope,
    entry.2.name = entry.1 ∧ Text.settle entry.1 = entry.1

/-- What a listing has under a name: the declared field, else the nearest own member of the holders
unless the name is left out. -/
def Graph.listed? (graph : Graph) (owner : Value) (scope : Scope) (name : String) :
    Option Member :=
  match Entries.get? (graph.fields owner scope) name with
  | some declaration => some (.field ⟨name, owner, declaration.type, scope, true⟩)
  | none =>
      if unlisted scope name then
        none
      else
        (ownAmong? graph (holdersFrom graph (graph.holder owner scope) scope) name).map
          (memberOf graph (graph.methods owner scope) owner scope name)

/-- What a holder has to add to a listing under a name. -/
def shown? (graph : Graph) (methods : List (String × MethodDeclaration)) (owner : Value)
    (scope : Scope) (holder : Value) (name : String) : Option Member :=
  if unlisted scope name then
    none
  else
    (graph.own? holder (.ofText name)).map (memberOf graph methods owner scope name)

section Fold

variable (methods : List (String × MethodDeclaration)) (owner : Value) (scope : Scope)

/-- A listing with the own member of one key, unless its name is there or is left out. -/
def addKey (graph : Graph) (holder : Value) (listed : List (String × Member)) (key : Key) :
    List (String × Member) :=
  if Entries.has listed key.text || unlisted scope key.text then
    listed
  else
    match graph.own? holder key with
    | some property =>
        listed ++ [(key.text, memberOf graph methods owner scope key.text property)]
    | none => listed

theorem addListed_eq (members : List (String × Member)) (holder : Value) :
    addListed graph methods owner scope members holder =
      (graph.ownKeys holder).foldl (addKey methods owner scope graph holder) members :=
  rfl

theorem get?_addKey {holder : Value} {key : Key} (written : Key.ofText key.text = key)
    (listed : List (String × Member)) (name : String) :
    Entries.get? (addKey methods owner scope graph holder listed key) name =
      if key = .ofText name then
        (Entries.get? listed name).or (shown? graph methods owner scope holder name)
      else
        Entries.get? listed name := by
  have texts := Key.eq_ofText_iff written name
  unfold addKey
  by_cases here : key.text = name
  · subst here
    rw [if_pos (texts.1 rfl), shown?, written]
    cases there : Entries.get? listed key.text with
    | some member => simp [Entries.has, there]
    | none =>
        cases left : unlisted scope key.text with
        | true => simp [there]
        | false =>
            cases own : graph.own? holder key with
            | none => simp [Entries.has, there]
            | some property => simp [Entries.has, there, Entries.get?_append]
  · rw [if_neg fun same => here (texts.2 same)]
    split
    · rfl
    · cases own : graph.own? holder key with
      | none => rfl
      | some property =>
          rw [Entries.get?_append, if_neg here]
          cases Entries.get? listed name <;> rfl

theorem get?_addKeys {holder : Value} {keys : List Key}
    (written : ∀ key ∈ keys, Key.ofText key.text = key) (listed : List (String × Member))
    (name : String) :
    Entries.get? (keys.foldl (addKey methods owner scope graph holder) listed) name =
      if .ofText name ∈ keys then
        (Entries.get? listed name).or (shown? graph methods owner scope holder name)
      else
        Entries.get? listed name := by
  induction keys generalizing listed with
  | nil => simp
  | cons key rest inductionHypothesis =>
      rw [List.foldl_cons, inductionHypothesis fun other isLater =>
          written other (List.mem_cons_of_mem _ isLater),
        get?_addKey methods owner scope (written key List.mem_cons_self)]
      by_cases here : key = .ofText name
      · simp [← here, Option.or_assoc]
      · simp [here, Ne.symm here]

/-- Under each name a holder adds its own member to a listing that has none. -/
theorem get?_addListed {holder : Value}
    (written : ∀ key ∈ graph.ownKeys holder, Key.ofText key.text = key)
    (listed : List (String × Member)) (name : String) :
    Entries.get? (addListed graph methods owner scope listed holder) name =
      (Entries.get? listed name).or (shown? graph methods owner scope holder name) := by
  rw [addListed_eq, get?_addKeys methods owner scope written]
  split
  · rfl
  · rename_i absent
    rw [mem_ownKeys, Option.not_isSome_iff_eq_none] at absent
    simp [shown?, absent]

/-- Holders in a row add what the nearest of them has. -/
theorem get?_addHolders {holders : List Value}
    (written : ∀ holder ∈ holders, ∀ key ∈ graph.ownKeys holder, Key.ofText key.text = key)
    (listed : List (String × Member)) (name : String) :
    Entries.get? (holders.foldl (addListed graph methods owner scope) listed) name =
      (Entries.get? listed name).or (if unlisted scope name then none else
        (ownAmong? graph holders name).map (memberOf graph methods owner scope name)) := by
  induction holders generalizing listed with
  | nil => simp [ownAmong?]
  | cons holder rest inductionHypothesis =>
      rw [List.foldl_cons, inductionHypothesis fun other isLater =>
          written other (List.mem_cons_of_mem _ isLater),
        get?_addListed methods owner scope (written holder List.mem_cons_self), Option.or_assoc]
      congr 1
      unfold shown? ownAmong?
      rw [List.findSome?_cons]
      split
      · rfl
      · cases graph.own? holder (.ofText name) <;> rfl

/-- An invariant of listings is kept if it is kept where a new name is entered. -/
theorem addHolders_induction {motive : List (String × Member) → Prop} {holders : List Value}
    {listed : List (String × Member)} (start : motive listed)
    (step : ∀ holder ∈ holders, ∀ key ∈ graph.ownKeys holder, ∀ property listed,
      Entries.get? listed key.text = none → motive listed →
        motive (listed ++ [(key.text, memberOf graph methods owner scope key.text property)])) :
    motive (holders.foldl (addListed graph methods owner scope) listed) := by
  refine List.foldlRecOn holders _ start fun listed holds holder isHolder => ?_
  rw [addListed_eq]
  refine List.foldlRecOn _ _ holds fun listed holds key isKey => ?_
  unfold addKey
  split
  · exact holds
  · rename_i isNew
    simp only [Entries.has, Bool.or_eq_true, not_or, Option.not_isSome_iff_eq_none] at isNew
    cases graph.own? holder key with
    | none => exact holds
    | some property => exact step holder isHolder key isKey property listed isNew.1 holds

end Fold

/-! ## The declared fields -/

theorem nodup_append_new {α : Type} {entries : List (String × α)}
    (distinct : (entries.map Prod.fst).Nodup) {name : String}
    (isNew : Entries.get? entries name = none) (content : α) :
    ((entries ++ [(name, content)]).map Prod.fst).Nodup := by
  rw [List.map_append, List.map_singleton, List.nodup_append]
  refine ⟨distinct, by simp, fun other isThere added isAdded same => ?_⟩
  obtain rfl := List.mem_singleton.1 isAdded
  exact Entries.get?_eq_none_iff.1 isNew (same ▸ isThere)

theorem nodup_orElse {α : Type} {entries : List (String × α)}
    (distinct : (entries.map Prod.fst).Nodup) (later : List (String × α)) :
    ((Entries.orElse entries later).map Prod.fst).Nodup := by
  refine List.foldlRecOn (motive := fun merged : List (String × α) =>
    (merged.map Prod.fst).Nodup) later _ distinct fun merged holds pair _ => ?_
  split
  · exact holds
  · rename_i isNew
    rw [Entries.has, Option.not_isSome_iff_eq_none] at isNew
    exact nodup_append_new holds isNew pair.2

/-- No name is declared twice for a class. -/
theorem Graph.fields_nodup (graph : Graph) (owner : Value) (scope : Scope) :
    ((graph.fields owner scope).map Prod.fst).Nodup :=
  List.foldlRecOn (motive := fun merged : List (String × FieldDeclaration) =>
    (merged.map Prod.fst).Nodup) (graph.lineage owner) _ List.nodup_nil
    fun _ holds _ _ => nodup_orElse holds _

theorem get?_declaredFields (graph : Graph) (owner : Value) (scope : Scope) (name : String) :
    Entries.get? (declaredFields graph owner scope) name =
      (Entries.get? (graph.fields owner scope) name).map fun declaration =>
        .field ⟨declaration.name, owner, declaration.type, scope, true⟩ := by
  unfold declaredFields
  induction graph.fields owner scope with
  | nil => rfl
  | cons entry rest inductionHypothesis =>
      by_cases same : entry.1 = name
      · simp [Entries.get?, same]
      · simpa [Entries.get?, same] using inductionHypothesis

/-! ## Listings -/

/-- The members that a listing collects under their names, before they are sorted. -/
def Graph.collected (graph : Graph) (owner : Value) (scope : Scope) : List (String × Member) :=
  (holdersFrom graph (graph.holder owner scope) scope).foldl
    (addListed graph (graph.methods owner scope) owner scope) (declaredFields graph owner scope)

namespace Graph.Spelled

variable (spelled : graph.Spelled owner scope)

include spelled

theorem get?_collected (name : String) :
    Entries.get? (graph.collected owner scope) name = graph.listed? owner scope name := by
  unfold collected listed?
  rw [get?_addHolders _ _ _ fun holder isHolder key isKey =>
    (spelled.keys holder isHolder key isKey).1, get?_declaredFields]
  cases declared : Entries.get? (graph.fields owner scope) name with
  | none => rfl
  | some declaration =>
      have named := (spelled.fields _ (Entries.mem_of_get? declared)).1
      dsimp only at named
      simp [named]

/-- The names of a listing are different and settled, and each member is under its own. -/
theorem collected_named :
    ((graph.collected owner scope).map Prod.fst).Nodup ∧
      ∀ entry ∈ graph.collected owner scope,
        entry.2.name = entry.1 ∧ Text.settle entry.1 = entry.1 := by
  unfold collected
  refine addHolders_induction (motive := fun listed : List (String × Member) =>
    (listed.map Prod.fst).Nodup ∧
      ∀ entry ∈ listed, entry.2.name = entry.1 ∧ Text.settle entry.1 = entry.1) _ _ _ ?_ ?_
  · constructor
    · have same : (declaredFields graph owner scope).map Prod.fst =
          (graph.fields owner scope).map Prod.fst := by
        simp [declaredFields, Function.comp_def]
      rw [same]
      exact graph.fields_nodup owner scope
    · intro entry isDeclared
      obtain ⟨declared, inFields, rfl⟩ := List.mem_map.1 isDeclared
      exact spelled.fields declared inFields
  · intro holder isHolder key isKey property listed isNew holds
    refine ⟨nodup_append_new holds.1 isNew _, fun entry isThere => ?_⟩
    rcases List.mem_append.1 isThere with earlier | isAdded
    · exact holds.2 entry earlier
    · obtain rfl := List.mem_singleton.1 isAdded
      exact ⟨memberOf_name .., (spelled.keys holder isHolder key isKey).2⟩

/-- A listing has exactly the members that it has under their names. -/
theorem mem_collected (member : Member) :
    member ∈ (graph.collected owner scope).map (·.2) ↔
      graph.listed? owner scope member.name = some member := by
  obtain ⟨distinct, named⟩ := spelled.collected_named
  rw [← spelled.get?_collected]
  constructor
  · intro isListed
    obtain ⟨entry, isThere, rfl⟩ := List.mem_map.1 isListed
    rw [(named entry isThere).1]
    exact Entries.get?_of_mem distinct isThere
  · intro found
    exact List.mem_map.2 ⟨_, Entries.mem_of_get? found, rfl⟩

theorem mem_listing (member : Member) :
    member ∈ Text.sortByUnits Member.name ((graph.collected owner scope).map (·.2)) ↔
      graph.listed? owner scope member.name = some member := by
  rw [(Text.sortByUnits_perm _ _).mem_iff, spelled.mem_collected]

theorem collected_sorted :
    ((Text.sortByUnits Member.name ((graph.collected owner scope).map (·.2))).map
      Member.name).Pairwise fun left right => Text.unitsBefore left right = true := by
  obtain ⟨distinct, named⟩ := spelled.collected_named
  apply Text.sortByUnits_strict
  · intro member isListed
    obtain ⟨entry, isThere, rfl⟩ := List.mem_map.1 isListed
    rw [(named entry isThere).1, (named entry isThere).2]
  · have same : ((graph.collected owner scope).map (·.2)).map Member.name =
        (graph.collected owner scope).map Prod.fst := by
      rw [List.map_map]
      exact List.map_congr_left fun entry isThere => (named entry isThere).1
    rw [same]
    exact distinct

end Graph.Spelled

/-! ## Classes -/

/-- A class whose members can be looked up: a function, not the open type, which shares its members
through a slot. -/
structure Graph.IsOwner (graph : Graph) (owner : Value) : Prop where
  callable : graph.isCallable owner = true
  notOpen : owner ≠ openType
  shares : (graph.look? owner (.name "prototype")).isSome = true

theorem unblocked_of_shown {name : String} (shown : unlisted scope name = false) :
    blockedNames.contains name = false := by
  simp only [unlisted, Bool.or_eq_false_iff] at shown
  exact shown.1

theorem listed_name {name : String} {member : Member}
    (listed : graph.listed? owner scope name = some member) : member.name = name := by
  unfold listed? at listed
  split at listed
  · cases listed
    rfl
  · split at listed
    · cases listed
    · obtain ⟨property, _, rfl⟩ := Option.map_eq_some_iff.1 listed
      exact memberOf_name ..

/-- What is listed as a method under a name is a function that is found under it. -/
theorem listed_method {name : String} {method : MethodMember}
    (listed : graph.listed? owner scope name = some (.method method)) :
    ∃ callee flags, unlisted scope name = false ∧ graph.isCallable callee = true ∧
      graph.find? (graph.holder owner scope) (.ofText name) = some (.data callee flags) ∧
      method = functionMember (graph.methods owner scope) owner scope name callee := by
  unfold listed? at listed
  split at listed
  · cases listed
  · split at listed
    · cases listed
    · rename_i shown
      obtain ⟨property, among, same⟩ := Option.map_eq_some_iff.1 listed
      cases function : holdsFunction graph property with
      | false =>
          rw [memberOf_of_simple function] at same
          cases same
      | true =>
          obtain ⟨callee, flags, rfl, callable, isMethod⟩ := memberOf_of_function function
            (graph.methods owner scope) owner scope name
          rw [isMethod] at same
          cases same
          exact ⟨callee, flags, Bool.eq_false_iff.2 shown, callable, find?_of_ownAmong? among, rfl⟩

namespace Graph.IsOwner

variable (isOwner : graph.IsOwner owner)

include isOwner

theorem holderOf_eq (scope : Scope) :
    holderOf owner scope graph = .ok (graph.holder owner scope) graph := by
  cases scope with
  | onClass => rfl
  | onInstance =>
      obtain ⟨shared, looked⟩ := Option.isSome_iff_exists.1 isOwner.shares
      have present : owner.isMissing = false := IsType.isMissing (Or.inl isOwner.callable)
      rw [Graph.holder, member_of_look? looked]
      rw [← Key.ofText_prototype] at looked
      exact Run.stepWith_of_look? perform present looked

theorem listMembers_eq (scope : Scope) :
    listMembers owner scope graph =
      .ok (Text.sortByUnits Member.name ((graph.collected owner scope).map (·.2))) graph := by
  unfold listMembers
  rw [bind_of_ok (isOwner.holderOf_eq scope)]
  rfl

/-! ## Lookups of what is listed -/

/-- The lookup of a field gives what is listed as a field under its name, and nothing else. -/
theorem field_iff_listed {name : String} (shown : unlisted scope name = false)
    (field : FieldMember) (later : Graph) :
    Resolver.standard.field owner name scope none graph = .ok field later ↔
      later = graph ∧ graph.listed? owner scope name = some (.field field) := by
  have unblocked := unblocked_of_shown shown
  have found : Resolver.standard.field owner name scope none = findField owner name scope none :=
    rfl
  have throws : ∀ detail, (do throw (← notFound .field owner name detail) : Run FieldMember) graph ≠
      .ok field later := fun detail ended => by
    obtain ⟨_, _, _, thrown⟩ := ok_of_bind ended
    cases thrown
  unfold findField at found
  rw [found, unblocked, if_neg Bool.false_ne_true, bind_get, listed?]
  -- The cases are those of the lookup; the listing asks the same questions in the same order.
  cases declared : Entries.get? (graph.fields owner scope) name with
  | some declaration =>
      constructor
      · intro ended
        cases ended
        exact ⟨rfl, rfl⟩
      · rintro ⟨rfl, same⟩
        cases same
        rfl
  | none =>
      dsimp only
      rw [bind_of_ok (isOwner.holderOf_eq scope), bind_get, shown, if_neg Bool.false_ne_true]
      cases ownAmong? graph (holdersFrom graph (graph.holder owner scope) scope) name with
      | none =>
          simp only [Option.map_none, reduceCtorEq, and_false, iff_false]
          cases scope with
          | onClass => exact throws none
          | onInstance =>
              dsimp only [knownValue]
              rw [if_neg isOwner.notOpen]
              exact throws none
      | some property =>
          dsimp only [Option.map_some]
          cases function : holdsFunction graph property with
          | true =>
              obtain ⟨callee, flags, _, _, isMethod⟩ := memberOf_of_function function
                (graph.methods owner scope) owner scope name
              simp only [if_true, isMethod, Option.some.injEq, reduceCtorEq, and_false, iff_false]
              exact throws _
          | false =>
              rw [memberOf_of_simple function, if_neg Bool.false_ne_true]
              constructor
              · intro ended
                cases ended
                exact ⟨rfl, rfl⟩
              · rintro ⟨rfl, same⟩
                cases same
                rfl

/-- The lookup of a method gives what is listed as a method under its name, for all arguments that
its schemas accept. -/
theorem method_of_listed {name : String} {method : MethodMember}
    (listed : graph.listed? owner scope name = some (.method method)) :
    ∃ callee schemas, method.action = .call callee schemas ∧
      ∀ arguments values later, checkArguments schemas arguments graph = .ok (.ok values) later →
        Resolver.standard.method owner name arguments scope none graph = .ok method later := by
  obtain ⟨callee, flags, shown, callable, found, rfl⟩ := listed_method listed
  have unblocked := unblocked_of_shown shown
  have isRead : readMethod owner name scope none graph = .ok callee graph := by
    have read : (do Run.readAsObject (← holderOf owner scope) name) graph = .ok callee graph := by
      rw [bind_of_ok (isOwner.holderOf_eq scope)]
      exact Run.readAsObject_of_look? (look?_of_find? found)
    cases scope <;> exact read
  have looks : ∀ arguments, Resolver.standard.method owner name arguments scope none =
      findMethod Resolver.standard owner name arguments scope none := fun _ => rfl
  unfold findMethod at looks
  unfold functionMember
  cases declared : Entries.get? (graph.methods owner scope) name with
  | none =>
      refine ⟨callee, [], rfl, fun arguments values later accepted => ?_⟩
      cases accepted
      rw [looks, unblocked, if_neg Bool.false_ne_true, bind_get, bind_of_ok isRead, bind_get,
        if_pos callable, declared]
      rfl
  | some declaration =>
      refine ⟨callee, declaration.schemas, rfl, fun arguments values later accepted => ?_⟩
      rw [looks, unblocked, if_neg Bool.false_ne_true, bind_get, bind_of_ok isRead, bind_get,
        if_pos callable, declared]
      dsimp only
      rw [bind_of_ok accepted]
      rfl

end Graph.IsOwner

/-! ## Listings and lookups agree -/

/-- A listing of the members of a class agrees with the lookups of their names.  The lookup of a
field returns exactly what is listed as a field of that name, whatever declares or shares it.  For
every listed method the lookup of its name returns this method, for all arguments that its schemas
accept.  The names in the listing rise strictly. -/
theorem listing_agrees_with_lookups (isOwner : graph.IsOwner owner)
    (spelled : graph.Spelled owner scope) :
    ∃ members, listMembers owner scope graph = .ok members graph ∧
      (∀ name, unlisted scope name = false → ∀ field later,
        Resolver.standard.field owner name scope none graph = .ok field later ↔
          later = graph ∧ field.name = name ∧ .field field ∈ members) ∧
      (∀ method, .method method ∈ members → unlisted scope method.name = false ∧
        ∃ callee schemas, method.action = .call callee schemas ∧
          ∀ arguments values later,
            checkArguments schemas arguments graph = .ok (.ok values) later →
              Resolver.standard.method owner method.name arguments scope none graph =
                .ok method later) ∧
      (members.map Member.name).Pairwise fun left right => Text.unitsBefore left right = true := by
  refine ⟨_, isOwner.listMembers_eq scope, ?_, ?_, spelled.collected_sorted⟩
  · intro name shown field later
    rw [isOwner.field_iff_listed shown, spelled.mem_listing]
    constructor
    · rintro ⟨rfl, listed⟩
      have named : field.name = name := listed_name listed
      exact ⟨rfl, named, by rw [Member.name, named, listed]⟩
    · rintro ⟨rfl, rfl, listed⟩
      exact ⟨rfl, listed⟩
  · intro method isListed
    have listed := (spelled.mem_listing _).1 isListed
    obtain ⟨_, _, shown, _⟩ := listed_method listed
    exact ⟨shown, isOwner.method_of_listed listed⟩

/-- The standard graph with a class of shapes and one of circles, which descends from it.  Shapes
declare the number of their sides and the method that measures them, and share two other methods;
circles compute what is a method of shapes. -/
@[irreducible]
def shapeGraph : Graph :=
  stateAfter (do
    let number := Value.object BuiltinClass.number.place
    let shape ← Run.newClass "Shape" none ⟨none, none, []⟩
    let shared ← Run.read shape "prototype"
    Run.declareField shared "sides" number
    Run.declareMethod shared "measure" number [.ofKind .string]
    let measure ← Run.newFunction "measure" []
    for name in ["measure", "turn", "outline"] do
      modify (·.enter shared (.ofText name) (.data measure .hidden))
    let circle ← Run.newClass "Circle" (some shape) ⟨none, none, []⟩
    let round ← Run.read circle "prototype"
    modify (·.enter round (.ofText "outline") (.accessor none none false true))
    pure circle)
    Graph.standard

/-- Whether a listing has a method under a name. -/
def Graph.listsMethod (graph : Graph) (owner : Value) (scope : Scope) (name : String) : Bool :=
  match graph.listed? owner scope name with
  | some (.method _) => true
  | _ => false

/-- A circle lists its outline as a field, which is what the lookup finds, and finds how it is
measured as the method that it lists. -/
theorem circle_lists_what_is_found :
    let circle := Value.object (Graph.standard.objects.size + 3)
    shapeGraph.IsOwner circle ∧ shapeGraph.Spelled circle .onInstance ∧
      ∃ members, listMembers circle .onInstance shapeGraph = .ok members shapeGraph ∧
        (∃ field, Resolver.standard.field circle "outline" .onInstance none shapeGraph =
          .ok field shapeGraph ∧ .field field ∈ members) ∧
        ∃ method, .method method ∈ members ∧ method.name = "measure" ∧
          ∃ callee schemas, method.action = .call callee schemas ∧
            ∀ arguments values later,
              checkArguments schemas arguments shapeGraph = .ok (.ok values) later →
                Resolver.standard.method circle "measure" arguments .onInstance none shapeGraph =
                  .ok method later := by
  intro circle
  have isOwner : shapeGraph.IsOwner circle :=
    ⟨by decide +kernel, by decide +kernel, by decide +kernel⟩
  have spelled : shapeGraph.Spelled circle .onInstance := ⟨by decide +kernel, by decide +kernel⟩
  obtain ⟨members, listed, fields, methods, _⟩ := listing_agrees_with_lookups isOwner spelled
  refine ⟨isOwner, spelled, members, listed, ?_, ?_⟩
  · have returns : ((Resolver.standard.field circle "outline" .onInstance none).run'
        shapeGraph).isSome = true := by decide +kernel
    obtain ⟨field, given⟩ := Option.isSome_iff_exists.1 returns
    have found := ok_of_run' given
    obtain ⟨same, _, isListed⟩ := (fields "outline" (by decide) field _).1 found
    exact ⟨field, by rw [found, same], isListed⟩
  · have lists : shapeGraph.listsMethod circle .onInstance "measure" = true := by decide +kernel
    unfold listsMethod at lists
    split at lists
    · rename_i method isMethod
      have named : method.name = "measure" := listed_name isMethod
      have isListed : .method method ∈ members := by
        cases (isOwner.listMembers_eq .onInstance).symm.trans listed
        rw [spelled.mem_listing, Member.name, named, isMethod]
      obtain ⟨_, found⟩ := methods method isListed
      rw [named] at found
      exact ⟨method, isListed, named, found⟩
    · cases lists

end Listing

end ObjectPath
