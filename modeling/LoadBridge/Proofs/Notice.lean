import LoadBridge.Notice

/-!
# Notices by kind

The notices of one kind, taken from several sources one after the other, are those of each source.
A source whose notices are all of that kind gives all of them, one without that kind none.
-/

namespace LoadBridge

variable {kind : NoticeKind} {subject : String} {notices : List Notice}

@[simp] theorem noticesOf_append (kind : NoticeKind) (before after : List Notice) :
    noticesOf kind (before ++ after) = noticesOf kind before ++ noticesOf kind after :=
  List.filter_append ..

theorem noticesOf_eq_self (h : ∀ n ∈ notices, n.kind = kind) : noticesOf kind notices = notices :=
  List.filter_eq_self.2 fun n hn => beq_iff_eq.2 (h n hn)

theorem noticesOf_eq_nil (h : ∀ n ∈ notices, n.kind ≠ kind) : noticesOf kind notices = [] :=
  List.filter_eq_nil_iff.2 fun n hn hkind => h n hn (eq_of_beq hkind)

theorem hasNotice_iff : hasNotice kind subject notices = true ↔
    ∃ n ∈ noticesOf kind notices, n.subject = subject := by
  simp [hasNotice]

end LoadBridge
