import StaticSite.Proofs.Page.Stamping
import StaticSite.Proofs.Text.Places

/-!
# Anchors of the stamps

The source path goes in behind the first body tag of a page and the admin script in front of its
first closing body tag.  No tag reaches over the place where the other stamp goes in, and no stamp
brings a tag that the other one looks for, so both go in where the compiled page has its tags,
whichever comes first, and can be taken out again.
-/

namespace StaticSite

namespace PageStamps

/-- The place behind the first body tag. -/
def tagEnd? (html : Text) : Option Nat :=
  (Text.place? bodyTag html).map (· + bodyTag.length)

/-- The place in front of the first closing body tag, or behind a page that has none. -/
def closePlace (html : Text) : Nat :=
  (Text.place? bodyClose html).getD html.length

/-- The admin script on a line of its own. -/
def scriptLine : Text := '\n' :: StaticSite.adminScript

/-- What the stamps put in at a place of a page. -/
def pieces (stamps : PageStamps) (path html : Text) (place : Nat) : Text :=
  (if stamps.sourcePath = true ∧ tagEnd? html = some place then sourcePathAttribute path else [])
    ++ if stamps.adminScript = true ∧ closePlace html = place then scriptLine else []

/-- The page without the attribute behind its first body tag. -/
def removeSourcePath (path page : Text) : Text :=
  match tagEnd? page with
  | some place => Text.removeAt place (sourcePathAttribute path).length page
  | none => page

/-- The page without the script in front of its first closing body tag, or at its end. -/
def removeAdminScript (page : Text) : Text :=
  Text.removeAt (closePlace page - scriptLine.length) scriptLine.length page

/-- The page without the stamps that are on. -/
def remove (stamps : PageStamps) (path page : Text) : Text :=
  let unscripted := if stamps.adminScript then removeAdminScript page else page
  if stamps.sourcePath then removeSourcePath path unscripted else unscripted

variable {stamps : PageStamps} {path html : Text} {place : Nat}

/-! ## Where each stamp goes -/

theorem bodyTag_ne_nil : bodyTag ≠ [] := by decide

theorem bodyClose_ne_nil : bodyClose ≠ [] := by decide

theorem tagEnd?_eq_some : tagEnd? html = some place ↔
    ∃ before after, Text.cut bodyTag html = some (before, after) ∧
      place = (before ++ bodyTag).length := by
  unfold tagEnd?
  cases found : Text.cut bodyTag html with
  | none => simp [Text.place?_of_cut_eq_none bodyTag_ne_nil found]
  | some parts =>
    obtain ⟨before, after⟩ := parts
    simp [Text.place?_of_cut bodyTag_ne_nil found, eq_comm]

theorem tagEnd?_eq_none : tagEnd? html = none ↔ Text.cut bodyTag html = none := by
  rw [tagEnd?, Option.map_eq_none_iff, Text.place?_eq_none_iff bodyTag_ne_nil,
    Text.cut_eq_none_iff bodyTag_ne_nil]

theorem tagEnd?_le (found : tagEnd? html = some place) : place ≤ html.length := by
  obtain ⟨before, after, cut, rfl⟩ := tagEnd?_eq_some.1 found
  rw [Text.append_of_cut cut]
  exact (List.prefix_append _ after).length_le

theorem stampSourcePath_of_tagEnd (found : tagEnd? html = some place) :
    stampSourcePath path html = Text.insertAt place (sourcePathAttribute path) html := by
  obtain ⟨before, after, cut, rfl⟩ := tagEnd?_eq_some.1 found
  rw [stampSourcePath_of_cut cut, Text.append_of_cut cut, Text.insertAt_append, List.append_assoc]

theorem stampSourcePath_of_no_tag (missing : tagEnd? html = none) :
    stampSourcePath path html = html := by
  rw [stampSourcePath, Text.insertAfter?, tagEnd?_eq_none.1 missing, Option.map_none,
    Option.getD_none]

theorem closePlace_cases (html : Text) :
    (∃ before after, html = before ++ (bodyClose ++ after) ∧
      Text.cut bodyClose html = some (before, after) ∧ closePlace html = before.length) ∨
    Text.cut bodyClose html = none ∧ closePlace html = html.length := by
  unfold closePlace
  cases found : Text.cut bodyClose html with
  | none => exact .inr ⟨rfl, by rw [Text.place?_of_cut_eq_none bodyClose_ne_nil found]; rfl⟩
  | some parts =>
    refine .inl ⟨parts.1, parts.2, ?_, rfl, ?_⟩
    · rw [Text.append_of_cut found, List.append_assoc]
    · rw [Text.place?_of_cut bodyClose_ne_nil found]
      rfl

theorem closePlace_le (html : Text) : closePlace html ≤ html.length := by
  rcases closePlace_cases html with ⟨before, after, rfl, _, isPlace⟩ | ⟨_, isPlace⟩
  · rw [isPlace, List.length_append]
    exact Nat.le_add_right _ _
  · exact Nat.le_of_eq isPlace

theorem stampAdminScript_eq (html : Text) :
    stampAdminScript html = Text.insertAt (closePlace html) scriptLine html := by
  rcases closePlace_cases html with ⟨before, after, isHtml, found, isPlace⟩ | ⟨missing, isPlace⟩
  · rw [stampAdminScript_of_cut found, isPlace, isHtml, Text.insertAt_append]
    rfl
  · rw [stampAdminScript_of_none missing, isPlace, Text.insertAt, List.take_length,
      List.drop_length, List.append_nil]
    rfl

/-! ## No tag reaches over the place of the other stamp -/

theorem not_straddles_closePlace {mark : Text} (opens : '<' ∉ mark.tail) (html : Text) :
    ¬ Text.Straddles mark (closePlace html) html := by
  refine Text.not_straddles_of_head fun c isFirst => ?_
  rcases closePlace_cases html with ⟨before, after, isHtml, _, isPlace⟩ | ⟨_, isPlace⟩
  · rw [isPlace, isHtml, List.drop_left] at isFirst
    obtain rfl : '<' = c := Option.some.inj isFirst
    exact opens
  · rw [isPlace, List.drop_length] at isFirst
    cases isFirst

/-- No closing tag ends in an opening one, nor does it begin in one. -/
theorem not_straddles_tagEnd (found : tagEnd? html = some place) :
    ¬ Text.Straddles bodyClose place html := by
  rintro ⟨first, second, nonempty, nonempty', isClose, isLast, _⟩
  obtain ⟨before, after, cut, rfl⟩ := tagEnd?_eq_some.1 found
  rw [Text.append_of_cut cut, List.take_left] at isLast
  have parts : ∀ count < 7, 0 < count →
      ¬ bodyClose.take count <:+ bodyTag ∧ ¬ bodyTag <:+ bodyClose.take count := by
    decide
  have isFirst : first = bodyClose.take first.length := by rw [isClose, List.take_left]
  have length : first.length + second.length = 7 := by
    rw [← List.length_append, ← isClose]
    rfl
  have positive := List.length_pos_iff.2 nonempty
  have positive' := List.length_pos_iff.2 nonempty'
  obtain ⟨notIn, notAround⟩ := parts first.length (by omega) positive
  rw [← isFirst] at notIn notAround
  rcases List.suffix_or_suffix_of_suffix isLast (List.suffix_append before bodyTag) with
    inTag | aroundTag
  · exact notIn inTag
  · exact notAround aroundTag

/-- The script closes no body of its own. -/
theorem bodyClose_not_infix_scriptLine : ¬ bodyClose <:+: scriptLine :=
  not_infix_script (by decide) (by decide) (by decide +kernel) (by decide +kernel)

theorem fenced_sourcePathAttribute : Text.Fenced bodyClose (sourcePathAttribute path) := by
  have first : " data-source-path=\"".toList.head? = some ' ' := by decide +kernel
  have last : ['"'].getLast? = some '"' := rfl
  unfold sourcePathAttribute
  rw [List.append_assoc]
  exact Text.Fenced.append_of_ends first (by decide) path last (by decide)

theorem bodyClose_not_infix_attribute (noClose : ¬ bodyClose <:+: path) :
    ¬ bodyClose <:+: sourcePathAttribute path := by
  intro within
  obtain ⟨left, right, whole⟩ := within.trans (List.suffix_append bodyTag _).isInfix
  rw [List.append_assoc] at whole
  obtain ⟨left', right', isPath, _⟩ := exists_of_attribute whole.symm
  exact noClose (Text.infix_of_split isPath)

/-! ## The anchors move with what is put in -/

theorem place?_bodyClose_stampSourcePath (noClose : ¬ bodyClose <:+: path)
    (found : tagEnd? html = some place) :
    Text.place? bodyClose (stampSourcePath path html)
      = (Text.place? bodyClose html).map (Text.moved place (sourcePathAttribute path).length) := by
  rw [stampSourcePath_of_tagEnd found]
  exact Text.place?_insertAt fenced_sourcePathAttribute (bodyClose_not_infix_attribute noClose)
    (not_straddles_tagEnd found) (tagEnd?_le found) bodyClose_ne_nil

theorem place?_bodyTag_stampAdminScript (html : Text) :
    Text.place? bodyTag (stampAdminScript html)
      = (Text.place? bodyTag html).map (Text.moved (closePlace html) scriptLine.length) := by
  rw [stampAdminScript_eq]
  exact Text.place?_insertAt (fenced_adminScript (by decide)) bodyTag_not_infix_script
    (not_straddles_closePlace (by decide) html) (closePlace_le html) bodyTag_ne_nil

theorem closePlace_stampSourcePath (noClose : ¬ bodyClose <:+: path)
    (found : tagEnd? html = some place) : closePlace (stampSourcePath path html)
      = Text.moved place (sourcePathAttribute path).length (closePlace html) := by
  have within := tagEnd?_le found
  have anchor := place?_bodyClose_stampSourcePath noClose found
  unfold closePlace
  rw [anchor]
  cases Text.place? bodyClose html with
  | some close => rfl
  | none =>
    rw [Option.map_none, Option.getD_none, Option.getD_none, Text.moved, if_neg (by omega),
      stampSourcePath_of_tagEnd found, Text.insertAt]
    simp only [List.length_append, List.length_take, List.length_drop]
    omega

theorem closePlace_stampAdminScript (html : Text) :
    closePlace (stampAdminScript html) = closePlace html + scriptLine.length := by
  have anchor : Text.place? bodyClose (stampAdminScript html)
      = (Text.place? bodyClose html).map (Text.moved (closePlace html) scriptLine.length) := by
    rw [stampAdminScript_eq]
    exact Text.place?_insertAt (fenced_adminScript (by decide)) bodyClose_not_infix_scriptLine
      (not_straddles_closePlace (by decide) html) (closePlace_le html) bodyClose_ne_nil
  cases found : Text.place? bodyClose html with
  | some close =>
    have isPlace : closePlace html = close := by rw [closePlace, found, Option.getD_some]
    rw [closePlace, anchor, found, isPlace, Option.map_some, Option.getD_some, Text.moved,
      if_neg (Nat.lt_irrefl _)]
  | none =>
    have isPlace : closePlace html = html.length := by rw [closePlace, found, Option.getD_none]
    rw [closePlace, anchor, found, Option.map_none, Option.getD_none, stampAdminScript_eq, isPlace,
      Text.insertAt]
    simp

/-- A first body tag that begins in front of the script ends in front of it. -/
theorem tagEnd?_stampAdminScript (found : tagEnd? html = some place) :
    tagEnd? (stampAdminScript html)
      = some (if place ≤ closePlace html then place else place + scriptLine.length) := by
  obtain ⟨tag, isTag, rfl⟩ := Option.map_eq_some_iff.1 found
  rw [tagEnd?, place?_bodyTag_stampAdminScript, isTag, Option.map_some, Option.map_some, Text.moved]
  have ends : tag < closePlace html → tag + bodyTag.length ≤ closePlace html :=
    Text.add_length_le_of_not_straddles bodyTag_ne_nil
      (not_straddles_closePlace (by decide) html)
      ((Text.place?_eq_some_iff bodyTag_ne_nil).1 isTag).1
  by_cases inFront : tag < closePlace html
  · rw [if_pos inFront, if_pos (ends inFront)]
  · have positive : 0 < bodyTag.length := by decide
    rw [if_neg inFront, if_neg (by omega), Nat.add_right_comm]

/-- Both stamps in the order of their places. -/
theorem stampAdminScript_stampSourcePath (noClose : ¬ bodyClose <:+: path)
    (found : tagEnd? html = some place) : stampAdminScript (stampSourcePath path html)
      = if place ≤ closePlace html then
          Text.insertAt place (sourcePathAttribute path)
            (Text.insertAt (closePlace html) scriptLine html)
        else Text.insertAt (closePlace html) scriptLine
          (Text.insertAt place (sourcePathAttribute path) html) := by
  rw [stampAdminScript_eq, closePlace_stampSourcePath noClose found,
    stampSourcePath_of_tagEnd found]
  split
  · next inFront =>
    rw [Text.moved, if_neg (Nat.not_lt.2 inFront),
      Text.insertAt_insertAt inFront (closePlace_le html)]
  · next behind => rw [Text.moved, if_pos (Nat.not_le.1 behind)]

theorem stamps_commute (noClose : ¬ bodyClose <:+: path) :
    stampAdminScript (stampSourcePath path html)
      = stampSourcePath path (stampAdminScript html) := by
  cases found : tagEnd? html with
  | none =>
    have missing : tagEnd? (stampAdminScript html) = none := by
      rw [tagEnd?, Option.map_eq_none_iff] at found
      rw [tagEnd?, place?_bodyTag_stampAdminScript, found]
      rfl
    rw [stampSourcePath_of_no_tag found, stampSourcePath_of_no_tag missing]
  | some place =>
    rw [stampAdminScript_stampSourcePath noClose found,
      stampSourcePath_of_tagEnd (tagEnd?_stampAdminScript found), stampAdminScript_eq]
    split
    · rfl
    · next behind =>
      rw [Text.insertAt_insertAt (Nat.le_of_not_le behind) (tagEnd?_le found)]

/-! ## Stamped pages -/

theorem stampSourcePath_eq_insertAll (path html : Text) : stampSourcePath path html
    = Text.insertAll
        (fun place => if tagEnd? html = some place then sourcePathAttribute path else []) html := by
  cases found : tagEnd? html with
  | none => rw [stampSourcePath_of_no_tag found, Text.insertAll_of_none fun _ => if_neg nofun]
  | some place =>
    simp only [Option.some.injEq]
    rw [stampSourcePath_of_tagEnd found, Text.insertAll_single _ (tagEnd?_le found)]

theorem stampAdminScript_eq_insertAll (html : Text) : stampAdminScript html
    = Text.insertAll (fun place => if closePlace html = place then scriptLine else []) html := by
  rw [stampAdminScript_eq, Text.insertAll_single _ (closePlace_le html)]

theorem both_stamps_eq_insertAll (noClose : ¬ bodyClose <:+: path) (html : Text) :
    stampAdminScript (stampSourcePath path html) = Text.insertAll
      (fun place => (if tagEnd? html = some place then sourcePathAttribute path else [])
        ++ if closePlace html = place then scriptLine else []) html := by
  cases found : tagEnd? html with
  | none =>
    simp only [reduceCtorEq, if_false, List.nil_append]
    rw [stampSourcePath_of_no_tag found, stampAdminScript_eq_insertAll]
  | some place =>
    simp only [Option.some.injEq]
    rw [stampAdminScript_stampSourcePath noClose found,
      Text.insertAll_pair (tagEnd?_le found) (closePlace_le html)]

/-- Every stamp that is on goes in where the page that is stamped has its tag. -/
theorem apply_eq_insertAll (noClose : ¬ bodyClose <:+: path) (stamps : PageStamps) (html : Text) :
    stamps.apply path html = Text.insertAll (stamps.pieces path html) html := by
  obtain ⟨named, scripted⟩ := stamps
  unfold pieces
  cases named with
  | false =>
    simp only [Bool.false_eq_true, false_and, if_false, List.nil_append]
    cases scripted with
    | false => exact (Text.insertAll_of_none fun _ => if_neg (by simp)).symm
    | true =>
      simp only [true_and]
      exact stampAdminScript_eq_insertAll html
  | true =>
    simp only [true_and]
    cases scripted with
    | false =>
      simp only [Bool.false_eq_true, false_and, if_false, List.append_nil]
      exact stampSourcePath_eq_insertAll path html
    | true =>
      simp only [true_and]
      exact both_stamps_eq_insertAll noClose html

theorem removeAdminScript_stampAdminScript (html : Text) :
    removeAdminScript (stampAdminScript html) = html := by
  rw [removeAdminScript, closePlace_stampAdminScript, Nat.add_sub_cancel, stampAdminScript_eq,
    Text.removeAt_insertAt (closePlace_le html)]

theorem removeSourcePath_stampSourcePath (path html : Text) :
    removeSourcePath path (stampSourcePath path html) = html := by
  cases found : tagEnd? html with
  | none => rw [stampSourcePath_of_no_tag found, removeSourcePath, found]
  | some place =>
    have within := tagEnd?_le found
    have stays : tagEnd? (stampSourcePath path html) = some place := by
      obtain ⟨before, after, cut, rfl⟩ := tagEnd?_eq_some.1 found
      have first := ((Text.cut_eq_some_iff bodyTag_ne_nil).1 cut).2
      exact tagEnd?_eq_some.2 ⟨before, _, by
        rw [stampSourcePath_of_cut cut, Text.cut_append bodyTag_ne_nil first], rfl⟩
    rw [removeSourcePath, stays, stampSourcePath_of_tagEnd found]
    exact Text.removeAt_insertAt within

theorem remove_apply (stamps : PageStamps) (path html : Text) :
    stamps.remove path (stamps.apply path html) = html := by
  obtain ⟨named, scripted⟩ := stamps
  have unscripted : (if scripted then removeAdminScript (apply ⟨named, scripted⟩ path html)
      else apply ⟨named, scripted⟩ path html)
      = if named then stampSourcePath path html else html := by
    cases scripted with
    | false => rfl
    | true => exact removeAdminScript_stampAdminScript _
  rw [remove]
  dsimp only
  rw [unscripted]
  cases named with
  | false => rfl
  | true => exact removeSourcePath_stampSourcePath path html

/-- Stamping puts in the attribute behind the first body tag of the compiled page and the script in
front of its first closing body tag, and nothing else, and all of it can be taken out again.  The
order of the stamps does not matter: what one of them looks for is in the page with the other one
where it was, moved on by the other one at most. -/
theorem stamps_keep_anchors (noClose : ¬ bodyClose <:+: path) (html : Text) :
    (∀ stamps : PageStamps,
      stamps.apply path html = Text.insertAll (stamps.pieces path html) html ∧
      stamps.remove path (stamps.apply path html) = html) ∧
    stampAdminScript (stampSourcePath path html) = stampSourcePath path (stampAdminScript html) ∧
    Text.place? bodyClose (stampSourcePath path html) = (Text.place? bodyClose html).map
      ((tagEnd? html).elim id fun tag => Text.moved tag (sourcePathAttribute path).length) ∧
    Text.place? bodyTag (stampAdminScript html)
      = (Text.place? bodyTag html).map (Text.moved (closePlace html) scriptLine.length) := by
  refine ⟨fun stamps => ⟨apply_eq_insertAll noClose stamps html, remove_apply stamps path html⟩,
    stamps_commute noClose, ?_, place?_bodyTag_stampAdminScript html⟩
  cases found : tagEnd? html with
  | none => rw [stampSourcePath_of_no_tag found, Option.elim_none, Option.map_id_fun, id]
  | some tag => exact place?_bodyClose_stampSourcePath noClose found

/-- A page that closes its body before it opens it, and opens it twice. -/
def reversedPage : Text := "</body><bod<body id=\"a\"><body></body".toList

theorem reversedPage_keeps_anchors : ¬ bodyClose <:+: "templates/<body>.html".toList ∧
    tagEnd? reversedPage = some 16 ∧ closePlace reversedPage = 0 ∧
    apply {} "templates/<body>.html".toList reversedPage = scriptLine ++
      "</body><bod<body data-source-path=\"templates/<body>.html\" id=\"a\"><body></body".toList ∧
    remove {} "templates/<body>.html".toList (apply {} "templates/<body>.html".toList reversedPage)
      = reversedPage := by
  have noClose : ¬ bodyClose <:+: "templates/<body>.html".toList :=
    Text.not_infix (by decide +kernel)
  have tag : tagEnd? reversedPage = some 16 := by decide +kernel
  have close : closePlace reversedPage = 0 := by decide +kernel
  obtain ⟨stamped, removed⟩ := (stamps_keep_anchors noClose reversedPage).1 {}
  refine ⟨noClose, tag, close, ?_, removed⟩
  have attributed :
      Text.insertAt 16 (sourcePathAttribute "templates/<body>.html".toList) reversedPage
        = "</body><bod<body data-source-path=\"templates/<body>.html\" id=\"a\"><body></body".toList
    := by decide +kernel
  rw [stamped]
  unfold pieces
  simp only [tag, close, true_and, Option.some.injEq]
  rw [Text.insertAll_pair (by decide +kernel) (by decide +kernel), if_neg (by decide),
    Text.insertAt_zero, attributed]

end PageStamps

end StaticSite
