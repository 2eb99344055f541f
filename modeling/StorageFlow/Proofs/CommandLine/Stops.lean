/-
# StorageFlow.Proofs.CommandLine.Stops — why arguments are not read to the end.

Reading stops because information is asked for, because a switch is misused, or because a list of passes names none.
Each cause is told by the arguments alone, without regard to the order in which they are read.

Main statement: `parse_stops` — whenever reading stops, there is such a cause for it.
-/
import StorageFlow.CommandLine.Invocation

namespace StorageFlow

theorem Table.notMem_of_find?_eq_none {α : Type} {k : Text} {entries : List (Text × α)}
    (h : Table.find? k entries = none) : k ∉ entries.map Prod.fst := by
  induction entries with
  | nil => exact List.not_mem_nil
  | cons entry entries ih =>
      obtain ⟨k', v⟩ := entry
      rw [Table.find?] at h
      split at h
      · exact absurd h (by simp)
      · next hne =>
        rw [List.map_cons, List.mem_cons, not_or]
        exact ⟨Ne.symm hne, ih h⟩

namespace CommandLine

/-! ## Causes -/

/-- Help or the version is asked for. -/
inductive Informs (arguments : List Text) : Stop → Prop
  | help {argument : Text} : argument ∈ arguments → Switch.help.isNamed argument = true → Informs arguments helpStop
  | version {argument : Text} : argument ∈ arguments → (argument = "--version" ∨ argument.startsWith "-V" = true) →
    Informs arguments versionStop

/-- The values among which a switch lets the user choose.  For other switches any value will do, or a list of names. -/
def Purpose.choices? : Purpose → Option (List Text)
  | .successPolicy => some (Policy.named.map Prod.fst)
  | .worklistOrder => some (Order.named.map Prod.fst)
  | .outputFormat => some (OutputFormat.named.map Prod.fst)
  | .version | .config | .passes | .listPasses | .noColors | .verbose | .quiet | .help => none

/-- A switch is given a value, by the next argument or by the same one. -/
inductive Gives (arguments : List Text) (switch : Switch) (value : Text) : Prop
  | apart {name : Text} : Switch.find? name = some switch → switch.value.isSome = true →
    [name, value] <:+: arguments → Gives arguments switch value
  | together {argument : Text} : argument ∈ arguments → Scan.splitValue argument = some (switch, value) →
    Gives arguments switch value

/-- An argument looks like a switch but is none, a switch at the end lacks its value, or a value is none of the
choices of its switch. -/
inductive Misuses (arguments : List Text) : Stop → Prop
  | unknownSwitch {argument : Text} : argument ∈ arguments → Scan.looksLikeSwitch argument = true →
    Switch.find? argument = none → Misuses arguments (unknownSwitch argument)
  | missingValue {switch : Switch} {name : Text} : Switch.find? name = some switch → switch.value.isSome = true →
    arguments.getLast? = some name → Misuses arguments (missingValue switch)
  | notAChoice {switch : Switch} {value : Text} {choices : List Text} : Gives arguments switch value →
    switch.purpose.choices? = some choices → value ∉ choices →
    Misuses arguments (refused switch value (.notAChoice choices))

/-- A list of passes has no names. -/
inductive NamesNoPasses (arguments : List Text) : Stop → Prop
  | refused {switch : Switch} {value : Text} : Gives arguments switch value → passNames value = .error .noPassNames →
    NamesNoPasses arguments (refused switch value .noPassNames)

/-- Something in the arguments makes the reading stop. -/
inductive StopsFor (arguments : List Text) (stop : Stop) : Prop
  | informs : Informs arguments stop → StopsFor arguments stop
  | misuses : Misuses arguments stop → StopsFor arguments stop
  | namesNoPasses : NamesNoPasses arguments stop → StopsFor arguments stop

/-- The status of a process that stops. -/
def Stop.code : Stop → Nat
  | exit code _ _ => code
  | failure _ => 2

variable {arguments : List Text} {stop : Stop}

theorem Informs.code_eq (h : Informs arguments stop) : stop.code = 0 := by cases h <;> rfl

theorem Misuses.code_eq (h : Misuses arguments stop) : stop.code = 1 := by cases h <;> rfl

theorem NamesNoPasses.code_eq (h : NamesNoPasses arguments stop) : stop.code = 2 := by
  cases h
  rfl

/-! ## Values -/

theorem notMem_of_chooseNamed {α : Type} {named : List (Text × α)} {value : Text} {refusal : Refusal}
    (h : chooseNamed named value = .error refusal) :
    refusal = .notAChoice (named.map Prod.fst) ∧ value ∉ named.map Prod.fst := by
  unfold chooseNamed at h
  split at h
  · exact absurd h (by simp)
  · next hnone =>
    obtain rfl := Except.error.inj h
    exact ⟨rfl, Table.notMem_of_find?_eq_none hnone⟩

/-- A value is refused if it is none of the choices, or a list without names. -/
theorem refusal_of_assign {purpose : Purpose} {o : Options} {value : Text} {refusal : Refusal}
    (h : purpose.assign o value = .error refusal) :
    (∃ choices, purpose.choices? = some choices ∧ refusal = .notAChoice choices ∧ value ∉ choices) ∨
      (refusal = .noPassNames ∧ passNames value = .error .noPassNames) := by
  have hnamed {α : Type} {named : List (Text × α)} {set : α → Options}
      (h : (chooseNamed named value).map set = .error refusal) :
      refusal = .notAChoice (named.map Prod.fst) ∧ value ∉ named.map Prod.fst := by
    cases hchosen : chooseNamed named value with
    | ok a =>
        rw [hchosen] at h
        exact absurd h (by simp [Except.map])
    | error other =>
        rw [hchosen] at h
        obtain rfl := Except.error.inj h
        exact notMem_of_chooseNamed hchosen
  cases purpose with
  | successPolicy => exact .inl ⟨_, rfl, hnamed h⟩
  | worklistOrder => exact .inl ⟨_, rfl, hnamed h⟩
  | outputFormat => exact .inl ⟨_, rfl, hnamed h⟩
  | passes =>
      right
      simp only [Purpose.assign, passNames] at h ⊢
      split at h
      · exact ⟨(Except.error.inj h).symm, rfl⟩
      · exact absurd h (by simp [Except.map])
  | _ => exact absurd h (by simp [Purpose.assign])

/-! ## Reading -/

namespace Scan

variable {s : Scan} {done rest : List Text} {argument value : Text} {switch : Switch}

/-- What is unknown was read, and starts with what looks like a switch but is none. -/
structure HasRead (s : Scan) (done : List Text) : Prop where
  unknown_subset : s.unknown ⊆ done
  head : ∀ argument, s.unknown.head? = some argument →
    looksLikeSwitch argument = true ∧ Switch.find? argument = none

/-- A step either stops for a cause in the arguments, or has read some of them. -/
def Reads (arguments done : List Text) : Except Stop Scan → Prop
  | .ok s => s.HasRead done
  | .error stop => StopsFor arguments stop

theorem Reads.bind {x : Except Stop Scan} {f : Scan → Except Stop Scan} {others : List Text}
    (hx : Reads arguments done x) (hf : ∀ s, s.HasRead done → Reads arguments others (f s)) :
    Reads arguments others (x.bind f) := by
  cases x with
  | ok s => exact hf s hx
  | error stop => exact hx

theorem HasRead.mono (h : s.HasRead done) (hdone : done ⊆ rest) : s.HasRead rest :=
  ⟨List.Subset.trans h.unknown_subset hdone, h.head⟩

theorem HasRead.keep (h : s.HasRead done) {kept : List Text} (hkept : kept ⊆ done) :
    (s.keep kept).HasRead done := by
  unfold Scan.keep
  split
  · exact ⟨h.unknown_subset, h.head⟩
  · next hunknown =>
    refine ⟨List.append_subset.2 ⟨h.unknown_subset, hkept⟩, fun argument hhead => ?_⟩
    rw [List.head?_append, Option.or_eq_some_iff] at hhead
    rcases hhead with hhead | ⟨hnone, -⟩
    · exact h.head argument hhead
    · exact absurd (List.head?_eq_none_iff.1 hnone) (by simpa using hunknown)

theorem HasRead.keepOne (h : s.HasRead done) (hargument : argument ∈ done)
    (hfind : Switch.find? argument = none) : (s.keepOne argument).HasRead done := by
  have hone : [argument] ⊆ done := List.cons_subset.2 ⟨hargument, List.nil_subset _⟩
  unfold Scan.keepOne
  split
  · next hlooks =>
    refine ⟨List.append_subset.2 ⟨h.unknown_subset, hone⟩, fun other hhead => ?_⟩
    rw [List.head?_append, Option.or_eq_some_iff] at hhead
    rcases hhead with hhead | ⟨-, hhead⟩
    · exact h.head other hhead
    · obtain rfl : argument = other := by simpa using hhead
      exact ⟨hlooks, hfind⟩
  · exact h.keep hone

theorem HasRead.assign (h : s.HasRead done) (hgives : Gives arguments switch value) :
    Reads arguments done (s.assign switch value) := by
  unfold Scan.assign
  split
  · exact ⟨h.unknown_subset, h.head⟩
  · next refusal hrefused =>
    rcases refusal_of_assign hrefused with ⟨choices, hchoices, rfl, hvalue⟩ | ⟨rfl, hnames⟩
    · exact .misuses (.notAChoice hgives hchoices hvalue)
    · exact .namesNoPasses (.refused hgives hnames)

/-- The version has two names. -/
theorem names_of_version (hfind : Switch.find? argument = some switch) (hversion : switch.purpose = .version) :
    argument = "--version" ∨ argument.startsWith "-V" = true := by
  have hmem : switch ∈ Switch.table := List.mem_of_find?_eq_some hfind
  have hnamed : switch.isNamed argument = true := List.find?_some (p := fun s => Switch.isNamed s argument) hfind
  have hswitch : ∀ s ∈ Switch.table, s.purpose = .version → s.short = some "-V" ∧ s.long = "--version" := by decide
  obtain ⟨hshort, hlong⟩ := hswitch switch hmem hversion
  rw [Switch.isNamed, hshort, hlong, Bool.or_eq_true, beq_iff_eq, beq_iff_eq] at hnamed
  rcases hnamed with hname | hname
  · right
    rw [← Option.some.inj hname]
    decide
  · exact .inl hname.symm

theorem HasRead.set (h : s.HasRead done) (hargument : argument ∈ arguments)
    (hfind : Switch.find? argument = some switch) : Reads arguments done (s.set switch) := by
  unfold Scan.set
  split
  · next hversion => exact .informs (.version hargument (names_of_version hfind hversion))
  · exact ⟨h.unknown_subset, h.head⟩

theorem HasRead.readOther (h : s.HasRead done) (hargument : argument ∈ done) (hdone : done ⊆ arguments)
    (hfind : Switch.find? argument = none) : Reads arguments done (s.readOther argument) := by
  unfold Scan.readOther
  split
  · next hversion => exact .informs (.version (hdone hargument) (.inr hversion))
  · split
    · next hsplit => exact h.assign (.together (hdone hargument) hsplit)
    · exact h.keepOne hargument hfind

/-- **Reading goes on until it stops for a cause.** -/
theorem HasRead.readAll (h : s.HasRead done) (harguments : done ++ rest = arguments) :
    Reads arguments arguments (s.readAll rest) := by
  induction s, rest using Scan.readAll.induct generalizing done with
  | case1 s =>
      rw [List.append_nil] at harguments
      exact harguments ▸ h
  | case2 s rest =>
      have hrest : rest ⊆ arguments := by
        rw [← harguments]
        exact List.Subset.trans (List.subset_cons_self _ _) (List.subset_append_right _ _)
      have hall : Text.ofString "--" :: rest ⊆ arguments := harguments ▸ List.subset_append_right _ _
      rw [Scan.readAll, if_pos rfl]
      refine (h.mono (harguments ▸ List.subset_append_left _ _)).keep ?_
      split
      · exact hrest
      · exact hall
  | case3 s argument rest hdashes hfind ih =>
      have hnext : done ++ [argument] ++ rest = arguments := by rw [← harguments, List.append_assoc]; rfl
      have hdone : done ++ [argument] ⊆ arguments := hnext ▸ List.subset_append_left _ _
      rw [Scan.readAll, if_neg hdashes, hfind]
      refine ((h.mono (List.subset_append_left _ _)).readOther (by simp) hdone hfind).bind fun s hs => ?_
      exact ih s hs hnext
  | case4 s argument hdashes switch hfind hvalue =>
      rw [Scan.readAll, if_neg hdashes, hfind]
      simp only [hvalue, if_true]
      exact .misuses (.missingValue hfind hvalue (by rw [← harguments, List.getLast?_concat]))
  | case5 s argument hdashes switch hfind hvalue value rest ih =>
      have hnext : done ++ [argument, value] ++ rest = arguments := by rw [← harguments, List.append_assoc]; rfl
      have hgives : Gives arguments switch value := .apart hfind hvalue ⟨done, rest, hnext⟩
      rw [Scan.readAll, if_neg hdashes, hfind]
      simp only [hvalue, if_true]
      refine ((h.mono (List.subset_append_left done [argument, value])).assign hgives).bind fun s hs => ?_
      exact ih s hs hnext
  | case6 s argument rest hdashes switch hfind hvalue ih =>
      have hnext : done ++ [argument] ++ rest = arguments := by rw [← harguments, List.append_assoc]; rfl
      have hargument : argument ∈ arguments := by simp [← hnext]
      rw [Scan.readAll, if_neg hdashes, hfind]
      simp only [hvalue]
      refine ((h.mono (List.subset_append_left done [argument])).set hargument hfind).bind fun s hs => ?_
      exact ih s hs hnext

end Scan

/-- **Whenever reading stops, there is a cause for it.** -/
theorem parse_stops (h : parse arguments = .error stop) : StopsFor arguments stop := by
  have hstart : Scan.start.HasRead [] := ⟨by simp [Scan.start], by simp [Scan.start]⟩
  have hread : Scan.Reads arguments arguments (Scan.start.readAll arguments) := hstart.readAll rfl
  unfold parse at h
  cases hall : Scan.start.readAll arguments with
  | error other =>
      rw [hall] at h hread
      obtain rfl : other = stop := Except.error.inj h
      exact hread
  | ok s =>
      rw [hall] at h hread
      obtain ⟨hsubset, hhead⟩ := hread
      simp only [Except.bind] at h
      split at h
      · next hhelp =>
        obtain rfl := Except.error.inj h
        obtain ⟨argument, hargument, hnamed⟩ := List.any_eq_true.1 hhelp
        exact .informs (.help (hsubset hargument) hnamed)
      · split at h
        · exact absurd h (by simp)
        · next argument others hunknown =>
          obtain rfl := Except.error.inj h
          have hargument : argument ∈ arguments := hsubset (hunknown ▸ List.mem_cons_self)
          obtain ⟨hlooks, hfind⟩ := hhead argument (by rw [hunknown, List.head?_cons])
          exact .misuses (.unknownSwitch hargument hlooks hfind)

end CommandLine

end StorageFlow
