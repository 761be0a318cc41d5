import Ripple.Store.Location
import Ripple.Proofs.Except
import Ripple.Proofs.Text.Utf8
import Mathlib.Data.List.TakeWhile

/-!
# Paths that are taken as they are

A path is plain if a connection text gives no meaning to anything in it (`Location.IsPlain`). Then
the database lies in the file at the path (`Location.ofPath_of_isPlain`), unless a question mark in
it leads nowhere (`Location.not_mem_of_ofPath`).
-/

namespace Ripple.Location

variable {cs start rest : List Char} {path : String}

/-- Whether a path names a file by what stands in it: nothing in it is decoded or ends it, and it
    does not begin with a scheme or with what would end one. -/
structure IsPlain (path : String) : Prop where
  named : path ≠ ""
  stored : path ≠ memoryPath
  whole : '\x00' ∉ path.toList
  literal : percentDecode (bytesOf path.toList) = bytesOf path.toList
  schemeless : ∀ scheme ∈ ["sqlite:", "file:", "//"], ¬scheme.toList <+: path.toList

/-! ## Connection texts -/

theorem stripRepeated_of_not_prefix (h : ¬start <+: cs) (fuel : ℕ) :
    stripRepeated start fuel cs = cs := by
  cases fuel with
  | zero => rfl
  | succ fuel => rw [stripRepeated, if_neg (by rwa [List.isPrefixOf_iff_prefix])]

theorem stripRepeated_append (fuel : ℕ) :
    stripRepeated start (fuel + 1) (start ++ cs) = stripRepeated start fuel cs := by
  rw [stripRepeated, if_pos (List.isPrefixOf_iff_prefix.2 (List.prefix_append start cs)),
    List.drop_left]

/-- What does not hold a character begins a text before the character, if it does at all. -/
theorem prefix_of_prefix_append {c : Char} (h : start <+: cs ++ c :: rest) (hc : c ∉ start) :
    start <+: cs := by
  refine (List.prefix_or_prefix_of_prefix h (List.prefix_append cs (c :: rest))).elim id ?_
  rintro ⟨more, rfl⟩
  rw [List.prefix_append_right_inj] at h
  cases more with
  | nil => simp
  | cons d more =>
    obtain rfl := (List.cons_prefix_cons.1 h).1
    exact absurd (List.mem_append_right _ List.mem_cons_self) hc

/-- Bytes without a percent sign stand for themselves. -/
theorem percentDecode_of_not_mem {bytes : List UInt8} (h : 37 ∉ bytes) :
    percentDecode bytes = bytes := by
  fun_induction percentDecode bytes with
  | case1 => rfl
  | case2 | case3 => exact absurd List.mem_cons_self h
  | case4 b rest _ ih => rw [ih (List.not_mem_of_not_mem_cons h)]

theorem percentDecode_bytesOf (h : '%' ∉ cs) : percentDecode (bytesOf cs) = bytesOf cs := by
  refine percentDecode_of_not_mem fun hmem => h ?_
  obtain ⟨c, hc, hmem⟩ := List.mem_flatMap.1 hmem
  have hnat : (37 : ℕ) = c.toNat := Utf8.toNat_of_mem_utf8EncodeChar hmem (by decide)
  obtain rfl : c = '%' := Char.toNat_inj.1 hnat.symm
  exact hc

/-- A plain path is the name of the file in its connection text. -/
theorem stripScheme_connectionText (h : IsPlain path) :
    stripScheme (connectionText path) = path.toList ++ "?mode=rwc".toList := by
  have htext : connectionText path = "sqlite:".toList ++ (path.toList ++ "?mode=rwc".toList) := by
    rw [connectionText, String.toList_append, String.toList_append, List.append_assoc]
  have hscheme {scheme : String} (hscheme : scheme ∈ ["sqlite:", "file:", "//"])
      (hmark : '?' ∉ scheme.toList) : ¬scheme.toList <+: path.toList ++ "?mode=rwc".toList :=
    fun hprefix => h.schemeless scheme hscheme (prefix_of_prefix_append hprefix hmark)
  have hslashes : ¬"sqlite://".toList <+: connectionText path := by
    rw [htext, show "sqlite://".toList = "sqlite:".toList ++ "//".toList by decide,
      List.prefix_append_right_inj]
    exact hscheme (by simp) (by decide)
  rw [stripScheme, stripRepeated_of_not_prefix hslashes]
  have hlength : (connectionText path).length =
      (path.toList ++ "?mode=rwc".toList).length + 6 + 1 := by
    rw [htext, List.length_append]
    exact Nat.add_comm _ _
  rw [hlength, htext, stripRepeated_append,
    stripRepeated_of_not_prefix (hscheme (by simp) (by decide))]

/-! ## Parameters -/

theorem mem_bytesOf {c : Char} (hc : c.toNat < 128) (hmem : c ∈ cs) :
    UInt8.ofNat c.toNat ∈ bytesOf cs := by
  refine List.mem_flatMap.2 ⟨c, hmem, ?_⟩
  have hval : c.val.toNat ≤ 127 := Nat.le_of_lt_succ hc
  rw [String.utf8EncodeChar]
  rw [if_pos hval]
  exact List.mem_singleton.2 rfl

/-- A question mark is left when percent signs are decoded. -/
theorem mem_percentDecode {bytes : List UInt8} (h : 63 ∈ bytes) : 63 ∈ percentDecode bytes := by
  fun_induction percentDecode bytes with
  | case1 => exact h
  | case2 a b rest high low hhigh hlow ih =>
    -- A question mark is no hexadecimal digit, so it stands after the escape.
    have hne {x y : UInt8} (hx : hexDigit? x = some y) : 63 ≠ x := by
      rintro rfl
      cases hx
    simp only [List.mem_cons] at h
    rcases h with h | h | h | h
    · cases h
    · exact absurd h (hne hlow)
    · exact absurd h (hne hhigh)
    · exact List.mem_cons_of_mem _ (ih h)
  | case3 a b rest hdigits ih =>
    exact List.mem_cons_of_mem _ (ih ((List.mem_cons.1 h).resolve_left (by decide)))
  | case4 b rest _ ih =>
    rcases List.mem_cons.1 h with h | h
    · exact h ▸ List.mem_cons_self
    · exact List.mem_cons_of_mem _ (ih h)

theorem mem_formDecode (h : '?' ∈ cs) : '?' ∈ (formDecode cs).toList := by
  have hbyte : (63 : UInt8) ∈ bytesOf cs := mem_bytesOf (c := '?') (by decide) h
  rw [formDecode, String.toList_ofList]
  exact Utf8.mem_decodeLossy (b := 63) (by decide)
    (mem_percentDecode (List.mem_map.2 ⟨63, hbyte, rfl⟩))

theorem exists_mem_splitOn {c : Char} (separator : Char) (hc : c ≠ separator) (h : c ∈ cs) :
    ∃ piece ∈ splitOn separator cs, c ∈ piece := by
  induction cs with
  | nil => exact absurd h List.not_mem_nil
  | cons d cs ih =>
    rw [splitOn]
    split
    · rename_i hd
      have hrest : c ∈ cs := (List.mem_cons.1 h).resolve_left fun he => hc (he.trans hd)
      obtain ⟨piece, hpiece, hmem⟩ := ih hrest
      exact ⟨piece, List.mem_cons_of_mem _ hpiece, hmem⟩
    rcases List.mem_cons.1 h with rfl | hrest
    · split
      · exact ⟨[c], List.mem_cons_self, List.mem_cons_self⟩
      · exact ⟨_, List.mem_cons_self, List.mem_cons_self⟩
    · obtain ⟨piece, hpiece, hmem⟩ := ih hrest
      split
      · rename_i hnil
        rw [hnil] at hpiece
        exact absurd hpiece List.not_mem_nil
      · rename_i first more hsplit
        rw [hsplit] at hpiece
        rcases List.mem_cons.1 hpiece with rfl | hpiece
        · exact ⟨_, List.mem_cons_self, List.mem_cons_of_mem _ hmem⟩
        · exact ⟨piece, List.mem_cons_of_mem _ hpiece, hmem⟩

/-- One of the parameters of a text has a question mark of the text. -/
theorem exists_mem_parameters (h : '?' ∈ cs) :
    ∃ parameter ∈ parameters cs, '?' ∈ parameter.1.toList ∨ '?' ∈ parameter.2.toList := by
  obtain ⟨piece, hpiece, hmem⟩ := exists_mem_splitOn '&' (by decide) h
  have hnonempty : (!piece.isEmpty) = true := by
    cases piece with
    | nil => exact absurd hmem List.not_mem_nil
    | cons => rfl
  refine ⟨_, List.mem_map.2 ⟨piece, List.mem_filter.2 ⟨hpiece, hnonempty⟩, rfl⟩, ?_⟩
  rw [← List.takeWhile_append_dropWhile (p := (· ≠ '=')) (l := piece), List.mem_append] at hmem
  rcases hmem with hmem | hmem
  · exact .inl (mem_formDecode hmem)
  · refine .inr (mem_formDecode ?_)
    -- The first of the other characters is an equals sign.
    cases hvalue : piece.dropWhile (· ≠ '=') with
    | nil =>
      rw [hvalue] at hmem
      exact absurd hmem List.not_mem_nil
    | cons c value =>
      have hhead := List.head?_dropWhile_not (· ≠ '=') piece
      rw [hvalue] at hmem hhead
      refine (List.mem_cons.1 hmem).resolve_left ?_
      rintro rfl
      cases hhead

/-- A parameter with a question mark is refused unless it names a file system, and a file system
    that has been named stays. -/
theorem isSome_fileSystem_add {o o' : Options} {parameter : String × String}
    (h : o.add parameter = .ok o') (hmark : '?' ∈ parameter.1.toList ∨ '?' ∈ parameter.2.toList ∨
      o.fileSystem.isSome) : o'.fileSystem.isSome := by
  obtain ⟨key, value⟩ := parameter
  have hkept {text : String} (htext : '?' ∉ text.toList) (hkey : key = text)
      (hvalue : '?' ∉ value.toList) : o.fileSystem.isSome :=
    (hmark.resolve_left (hkey ▸ htext)).resolve_left hvalue
  have hvalues {texts : List String} (htexts : ∀ text ∈ texts, '?' ∉ text.toList)
      (hvalue : value ∈ texts) : '?' ∉ value.toList := htexts _ hvalue
  -- All keys and values that are known are without question marks, but for file systems.
  rw [Options.add] at h
  split_ifs at h with h₁ h₂ h₃ h₄ h₅ h₆ h₇ h₈
  · obtain rfl := Except.ok.inj h
    exact hkept (by decide) h₁ (hvalues (by decide) h₂)
  · obtain rfl := Except.ok.inj h
    exact hkept (by decide) h₁ (h₃ ▸ by decide)
  · obtain rfl := Except.ok.inj h
    exact hkept (by decide) h₄ (hvalues (by decide) h₅)
  · obtain rfl := Except.ok.inj h
    exact hkept (by decide) h₆ (hvalues (by decide) h₇)
  · obtain rfl := Except.ok.inj h
    rfl

theorem isSome_fileSystem_foldlM {parameters : List (String × String)} {o o' : Options}
    (h : parameters.foldlM Options.add o = .ok o') (hmark : o.fileSystem.isSome ∨
      ∃ parameter ∈ parameters, '?' ∈ parameter.1.toList ∨ '?' ∈ parameter.2.toList) :
    o'.fileSystem.isSome := by
  induction parameters generalizing o with
  | nil =>
    obtain rfl := Except.ok.inj h
    simpa using hmark
  | cons parameter parameters ih =>
    rw [List.foldlM_cons] at h
    obtain ⟨next, hnext, h⟩ := bind_eq_ok.1 h
    refine ih h ?_
    rcases hmark with hsome | ⟨marked, hmem, hmark⟩
    · exact .inl (isSome_fileSystem_add hnext (.inr (.inr hsome)))
    · rcases List.mem_cons.1 hmem with rfl | hmem
      · exact .inl (isSome_fileSystem_add hnext (by tauto))
      · exact .inr ⟨marked, hmem, hmark⟩

/-- A connection text that leads somewhere has a file name and parameters that are known. -/
theorem of_ofConnection {text : List Char} {location : Location}
    (h : ofConnection text = .ok location) : ∃ isShared file options,
      (parameters (((stripScheme text).dropWhile (· ≠ '?')).drop 1)).foldlM Options.add
        ⟨isShared, none⟩ = .ok options ∧ location = options.location file := by
  obtain ⟨file, -, h⟩ := bind_eq_ok.1 h
  obtain ⟨options, hoptions, h⟩ := bind_eq_ok.1 h
  exact ⟨_, file, options, hoptions, (Except.ok.inj h).symm⟩

/-- There is no question mark in a plain path that leads anywhere: it would begin parameters, of
    which the last one would be refused. -/
theorem not_mem_of_ofPath (h : IsPlain path) {location : Location}
    (hlocation : ofPath path = .ok location) (hreach : ∀ fault, location ≠ .unreachable fault) :
    '?' ∉ path.toList := by
  intro hmem
  obtain ⟨before, after, hsplit, hbefore⟩ := List.eq_append_cons_of_mem hmem
  rw [ofPath, if_neg h.stored] at hlocation
  obtain ⟨isShared, file, options, hoptions, rfl⟩ := of_ofConnection hlocation
  rw [stripScheme_connectionText h] at hoptions
  -- The text that is added to the path brings a second question mark, which is a parameter's.
  have hrest : '?' ∈ ((path.toList ++ "?mode=rwc".toList).dropWhile (· ≠ '?')).drop 1 := by
    rw [hsplit, List.append_assoc, List.dropWhile_append_of_pos fun c hc => by
      simpa using ne_of_mem_of_not_mem hc hbefore]
    simp
  have hsystem := isSome_fileSystem_foldlM hoptions (.inr (exists_mem_parameters hrest))
  obtain ⟨fileSystem, hsystem⟩ := Option.isSome_iff_exists.1 hsystem
  exact hreach _ (by rw [Options.location, hsystem])

/-- A plain path that leads anywhere leads to the file at it. -/
theorem ofPath_of_isPlain (h : IsPlain path) (hmark : '?' ∉ path.toList) :
    ofPath path = .ok (.file path) := by
  have hquestion : ∀ c ∈ path.toList, (c ≠ '?' : Bool) := fun c hc => by
    simpa using ne_of_mem_of_not_mem hc hmark
  have hname : (path.toList ++ "?mode=rwc".toList).takeWhile (· ≠ '?') = path.toList := by
    rw [List.takeWhile_append_of_pos hquestion]
    simp
  have hrest : (path.toList ++ "?mode=rwc".toList).dropWhile (· ≠ '?') = "?mode=rwc".toList := by
    rw [List.dropWhile_append_of_pos hquestion]
    simp
  have hparameters : parameters ("?mode=rwc".toList.drop 1) = [("mode", "rwc")] := by
    decide +kernel
  have hstored : path.toList ≠ memoryPath.toList := String.toList_inj.not.2 h.stored
  have hnamed : path.toList ≠ [] := by
    rw [← String.toList_empty]
    exact String.toList_inj.not.2 h.named
  have hfile : ¬"file:".toList.isPrefixOf path.toList := by
    rw [List.isPrefixOf_iff_prefix]
    exact h.schemeless _ (by simp)
  have hofName : ofName path.toList = .file path := by
    simp only [ofName, if_neg h.whole, if_neg hfile, hnamed, hstored, or_self, if_false,
      String.ofList_toList]
  rw [ofPath, if_neg h.stored, ofConnection, stripScheme_connectionText h]
  simp only [hname, hrest, h.literal, hparameters, decide_eq_false hstored]
  rw [bytesOf, Utf8.decode_flatMap, ← hofName]
  rfl

end Ripple.Location
