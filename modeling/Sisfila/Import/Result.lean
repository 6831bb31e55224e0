import Sisfila.Import.Loop
import Mathlib.Data.List.Induction
import Mathlib.Data.List.Pairwise

namespace Sisfila

theorem Db.matricula_of_dono {d : Db} {m : String} {a : Aluno} (h : d.dono m=some a) :
    a ∈ d.alunos.rows ∧ a.matricula=some m :=
  ⟨List.mem_of_find?_eq_some h,by simpa using List.find?_some h⟩

theorem Db.dono_eq_none {d : Db} {m : String} :
    d.dono m=none ↔ ∀ a ∈ d.alunos.rows,a.matricula≠some m := by
  simp [Db.dono]

theorem Db.alunoValido_iff (d : Db) (a : Aluno) : d.alunoValido a=true ↔
    (d.colegiadoDe a.colegiadoId).isSome=true ∧
      ∀ b ∈ d.alunos.rows,b.id=a.id ∨ b.matricula≠a.matricula := by
  simp [Db.alunoValido]

/-- Nobody shares the matricula of an aluno that can be saved. -/
theorem Db.eq_of_valido {d : Db} {a b : Aluno} (hv : d.alunoValido a=true)
    (ha : a ∈ d.alunos.rows) (hb : b ∈ d.alunos.rows) (hm : b.matricula=a.matricula) : b=a := by
  have hid : b.id=a.id := (((d.alunoValido_iff a).mp hv).2 b hb).resolve_right (fun h => h hm)
  exact d.alunos.key_injective hb ha hid

/-- Of the alunos with a matricula only the first can be valid, and then it is the only one. -/
theorem Db.valido_iff_dono {d : Db} {m : String} {b : Aluno} (hb : d.dono m=some b) {x : Aluno}
    (hx : x ∈ d.alunos.rows) :
    d.alunoValido x=true ∧ x.matricula=some m ↔ x.id=b.id ∧ d.alunoValido b=true := by
  obtain ⟨hmem,hmat⟩ := Db.matricula_of_dono hb
  constructor
  · rintro ⟨hv,hm⟩
    obtain rfl := Db.eq_of_valido hv hx hmem (hmat.trans hm.symm)
    exact ⟨rfl,hv⟩
  · rintro ⟨hid,hv⟩
    rw [d.alunos.key_injective hx hmem hid]
    exact ⟨hv,hmat⟩

namespace ImporterController

variable (grupo : Option Grupo) (colegiado : Option Colegiado)

/-! The alunos the lines create, before any of them is renamed. -/

def comNovos (d : Db) (ms : List String) : Db := ms.foldl (comNovo colegiado) d

/-- `e` is `d` with an aluno for each of some matriculas that had none. -/
structure Estende (d e : Db) (ms : List String) (novos : List Aluno) : Prop where
  resto : e={ d with alunos := e.alunos }
  rows : e.alunos.rows=d.alunos.rows++novos
  forma : ∀ a ∈ novos,∃ m ∈ ms,∃ c ∈ colegiado,
    a={ id := a.id, matricula := some m, colegiadoId := some c.id }
  acima : ∀ a ∈ novos,d.alunos.next≤a.id
  alheia : ∀ a ∈ novos,∀ b ∈ d.alunos.rows,b.matricula≠a.matricula
  distinta : novos.Pairwise (fun a b => a.matricula≠b.matricula)

variable {colegiado}

theorem comNovos_append (d : Db) (ms : List String) (m : String) :
    comNovos colegiado d (ms++[m])=comNovo colegiado (comNovos colegiado d ms) m := by
  simp [comNovos]

theorem Estende.mono {d e : Db} {ms ms' : List String} {novos : List Aluno}
    (h : Estende colegiado d e ms novos) (hm : ∀ m ∈ ms,m ∈ ms') :
    Estende colegiado d e ms' novos where
  resto := h.resto
  rows := h.rows
  forma a ha := by
    obtain ⟨m,hms,hc⟩ := h.forma a ha
    exact ⟨m,hm m hms,hc⟩
  acima := h.acima
  alheia := h.alheia
  distinta := h.distinta

theorem Estende.insere {d e : Db} {ms : List String} {novos : List Aluno} {c : Colegiado}
    (h : Estende (some c) d e ms novos) (hn : d.alunos.next≤e.alunos.next) {m : String}
    (hm : m ∈ ms) (hd : e.dono m=none) : Estende (some c) d (insereAluno e m c.id) ms
      (novos++[{ id := e.alunos.next, matricula := some m, colegiadoId := some c.id }]) := by
  rw [Db.dono_eq_none,h.rows] at hd
  constructor
  · rw [h.resto]
    rfl
  · simp [insereAluno,h.rows]
  · intro a ha
    rcases List.mem_append.mp ha with ha | ha
    · exact h.forma a ha
    · exact ⟨m,hm,c,rfl,by rw [List.mem_singleton.mp ha]⟩
  · intro a ha
    rcases List.mem_append.mp ha with ha | ha
    · exact h.acima a ha
    · rw [List.mem_singleton.mp ha]
      exact hn
  · intro a ha b hb
    rcases List.mem_append.mp ha with ha | ha
    · exact h.alheia a ha b hb
    · rw [List.mem_singleton.mp ha]
      exact hd b (List.mem_append_left _ hb)
  · refine List.pairwise_append.mpr ⟨h.distinta,List.pairwise_singleton _ _,?_⟩
    intro a ha b hb
    rw [List.mem_singleton.mp hb]
    exact hd a (List.mem_append_right _ ha)

theorem estende_comNovos (colegiado : Option Colegiado) (d : Db) (ms : List String) :
    ∃ novos,Estende colegiado d (comNovos colegiado d ms) ms novos ∧
      d.alunos.next≤(comNovos colegiado d ms).alunos.next := by
  induction ms using List.reverseRecOn with
  | nil =>
    refine ⟨[],⟨rfl,?_,by simp,by simp,by simp,List.Pairwise.nil⟩,Nat.le_refl _⟩
    exact (List.append_nil _).symm
  | append_singleton ms m ih =>
    obtain ⟨novos,h,hn⟩ := ih
    have h := h.mono (fun x hx => List.mem_append_left [m] hx)
    rw [comNovos_append,comNovo]
    split_ifs with hd
    · exact ⟨novos,h,hn⟩
    · cases colegiado with
      | none => exact ⟨novos,h,hn⟩
      | some c =>
        have hd := Option.not_isSome_iff_eq_none.mp hd
        have hm : m ∈ ms++[m] := List.mem_append_right _ (List.mem_singleton_self m)
        exact ⟨_,h.insere hn hm hd,Nat.le_succ_of_le hn⟩

section extended

variable {d e : Db} {ms : List String} {novos : List Aluno}

theorem Estende.dono (h : Estende colegiado d e ms novos) {m : String} {a : Aluno}
    (ha : d.dono m=some a) : e.dono m=some a := by
  rw [Db.dono] at ha ⊢
  rw [h.rows,List.find?_append,ha]
  rfl

/-- Whether an aluno can be saved does not change while others are created. -/
theorem Estende.alunoValido (h : Estende colegiado d e ms novos) {b : Aluno}
    (hb : b ∈ e.alunos.rows) : e.alunoValido b=d.alunoValido b := by
  have hc : e.colegiadoDe b.colegiadoId=d.colegiadoDe b.colegiadoId := by
    rw [h.resto]
    rfl
  rw [Bool.eq_iff_iff,Db.alunoValido_iff,Db.alunoValido_iff,hc]
  refine and_congr_right (fun _ => ?_)
  rw [h.rows] at hb ⊢
  constructor
  · intro hx x hxd
    exact hx x (List.mem_append_left _ hxd)
  · intro hx x hxe
    rcases List.mem_append.mp hxe with hxd | hxn
    · exact hx x hxd
    · rcases List.mem_append.mp hb with hb | hb
      · exact .inr (h.alheia x hxn b hb).symm
      · by_cases he : x=b
        · exact .inl (congrArg Aluno.id he)
        · have : Std.Symm (fun a b : Aluno => a.matricula≠b.matricula) := ⟨fun _ _ h => h.symm⟩
          exact .inr (h.distinta.forall hxn hb he)

end extended

theorem dono_comNovo (d : Db) (m : String) (h : colegiado.isSome=true ∨ (d.dono m).isSome=true) :
    ((comNovo colegiado d m).dono m).isSome=true := by
  unfold comNovo
  split_ifs with hd
  · exact hd
  · obtain ⟨c,rfl⟩ := Option.isSome_iff_exists.mp (h.resolve_right hd)
    simp [dono_insereAluno (Option.not_isSome_iff_eq_none.mp hd)]

theorem dono_comNovo_of_some (d : Db) (m : String) {x : String} {a : Aluno}
    (h : d.dono x=some a) : (comNovo colegiado d m).dono x=some a := by
  obtain ⟨novos,he,-⟩ := estende_comNovos colegiado d [m]
  exact he.dono h

theorem dono_comNovos (d : Db) {ms : List String} {m : String} (hm : m ∈ ms)
    (h : colegiado.isSome=true ∨ (d.dono m).isSome=true) :
    ((comNovos colegiado d ms).dono m).isSome=true := by
  induction ms using List.reverseRecOn with
  | nil => cases hm
  | append_singleton ms x ih =>
    rw [comNovos_append]
    rcases List.mem_append.mp hm with hm | hm
    · obtain ⟨a,ha⟩ := Option.isSome_iff_exists.mp (ih hm)
      simp [dono_comNovo_of_some _ x ha]
    · rw [← List.mem_singleton.mp hm]
      refine dono_comNovo _ m (h.imp_right ?_)
      intro hd
      obtain ⟨a,ha⟩ := Option.isSome_iff_exists.mp hd
      obtain ⟨novos,he,-⟩ := estende_comNovos colegiado d ms
      simp [he.dono ha]

/-- A later line does not change whose aluno an earlier one found. -/
theorem dono_comNovos_append (d : Db) {ms : List String} {x : String} (hx : x ∈ ms) (m : String) :
    (comNovos colegiado d (ms++[m])).dono x=(comNovos colegiado d ms).dono x := by
  rw [comNovos_append]
  cases hd : (comNovos colegiado d ms).dono x with
  | some a => exact dono_comNovo_of_some _ m hd
  | none =>
    cases colegiado with
    | none => simpa [comNovo] using hd
    | some c => simpa [hd] using dono_comNovos d hx (.inl (rfl : (some c).isSome=true))

/-! The names. -/

/-- The name on the last line with the matricula. -/
def ultimoNome (rs : List (String × String)) (m : String) : Option String :=
  (rs.reverse.find? (fun r => r.1==m)).map (fun r => r.2)

theorem ultimoNome_append (rs : List (String × String)) (r : String × String) (m : String) :
    ultimoNome (rs++[r]) m=if r.1=m then some r.2 else ultimoNome rs m := by
  simp only [ultimoNome,List.reverse_append,List.reverse_singleton,List.singleton_append,
    List.find?_cons]
  by_cases hm : r.1=m
  · simp [hm]
  · simp [hm,beq_eq_false_iff_ne.mpr hm]

theorem ultimoNome_eq_none (rs : List (String × String)) (m : String) :
    ultimoNome rs m=none ↔ m ∉ rs.map (fun r => r.1) := by
  simp only [ultimoNome,Option.map_eq_none_iff,List.find?_eq_none,List.mem_reverse,List.mem_map,
    beq_iff_eq,not_exists,not_and]

/-- What the updates of all lines make of an aluno. -/
def renomeado (d : Db) (rs : List (String × String)) (a : Aluno) : Aluno :=
  if d.alunoValido a then (a.matricula.bind (ultimoNome rs)).elim a (fun n => ativado n a) else a

theorem renomeado_eq (d : Db) (rs : List (String × String)) (a : Aluno) :
    renomeado d rs a=a ∨ ∃ n,renomeado d rs a=ativado n a := by
  unfold renomeado
  split_ifs
  · cases a.matricula.bind (ultimoNome rs) with
    | none => exact .inl rfl
    | some n => exact .inr ⟨n,rfl⟩
  · exact .inl rfl

/-- The columns that identify and validate an aluno are not touched. -/
theorem renomeado_colunas (d : Db) (rs : List (String × String)) (a : Aluno) :
    (renomeado d rs a).id=a.id ∧ (renomeado d rs a).matricula=a.matricula ∧
      (renomeado d rs a).colegiadoId=a.colegiadoId := by
  rcases renomeado_eq d rs a with h | ⟨n,h⟩
  · rw [h]
    exact ⟨rfl,rfl,rfl⟩
  · rw [h]
    exact ⟨rfl,rfl,rfl⟩

theorem key_renomeado (d : Db) (rs : List (String × String)) (a : Aluno) :
    Row.key (renomeado d rs a)=Row.key a := (renomeado_colunas d rs a).1

theorem renomeado_of_invalido {d : Db} {a : Aluno} (h : d.alunoValido a=false)
    (rs : List (String × String)) : renomeado d rs a=a := by
  simp [renomeado,h]

theorem renomeado_of_none {rs : List (String × String)} {a : Aluno}
    (h : a.matricula.bind (ultimoNome rs)=none) (d : Db) : renomeado d rs a=a := by
  simp [renomeado,h]

theorem renomeado_of_some {d : Db} {a : Aluno} (hv : d.alunoValido a=true)
    {rs : List (String × String)} {m n : String} (hm : a.matricula=some m)
    (hn : ultimoNome rs m=some n) : renomeado d rs a=ativado n a := by
  simp [renomeado,hv,hm,hn]

/-- One more line renames its own aluno, if it can be saved, and no other. -/
theorem renomeado_append {d : Db} {rs : List (String × String)} {r : String × String} {a : Aluno} :
    renomeado d (rs++[r]) a=if d.alunoValido a=true ∧ a.matricula=some r.1
      then ativado r.2 (renomeado d rs a) else renomeado d rs a := by
  cases hv : d.alunoValido a with
  | false => simp [renomeado_of_invalido hv]
  | true =>
    cases hm : a.matricula with
    | none => simp [renomeado,hm]
    | some m =>
      by_cases hr : r.1=m
      · subst hr
        rw [if_pos ⟨rfl,rfl⟩,renomeado_of_some hv hm (by rw [ultimoNome_append,if_pos rfl])]
        rcases renomeado_eq d rs a with h | ⟨n,h⟩
        · rw [h]
        · rw [h]
          rfl
      · simp [renomeado,hm,ultimoNome_append,hr,Ne.symm hr]

/-! The tables after the lines `rs`. -/

/-- The join rows, one for each line. -/
def inscritos (e : Db) (rs : List (String × String)) : List (Nat × Nat) :=
  grupo.elim [] (fun g => rs.filterMap (fun r => (e.dono r.1).map (fun a => (a.id,g.id))))

def importado (colegiado : Option Colegiado) (d : Db) (rs : List (String × String)) : Db :=
  { d with
    alunos := (comNovos colegiado d (rs.map (fun r => r.1))).alunos.map (renomeado d rs)
      (key_renomeado d rs)
    alunosGrupos := d.alunosGrupos++
      inscritos grupo (comNovos colegiado d (rs.map (fun r => r.1))) rs }

/-- The lines that can be imported: their aluno exists or can be created, and with a grupo it can
be saved or has nothing to save. -/
structure Aceita (colegiado : Option Colegiado) (d : Db) (rs : List (String × String)) : Prop where
  conhecida : ∀ r ∈ rs,colegiado.isSome=true ∨ (d.dono r.1).isSome=true
  salva : grupo.isSome=true → ∀ r ∈ rs,
    ∀ a ∈ (comNovos colegiado d (rs.map (fun r => r.1))).dono r.1,
      d.alunoValido a=true ∨ ativado r.2 a=a

section closed

variable {D e : Db} {f : Aluno → Aluno} (hf : ∀ a,Row.key (f a)=Row.key a)

theorem dono_map (hD : D.alunos=e.alunos.map f hf) (hm : ∀ a,(f a).matricula=a.matricula)
    (m : String) : D.dono m=(e.dono m).map f := by
  simp only [Db.dono,hD,Table.map_rows,List.find?_map,Function.comp_def,hm]

theorem alunoValido_map (hD : D.alunos=e.alunos.map f hf) (hc : D.colegiados=e.colegiados)
    (hm : ∀ a,(f a).matricula=a.matricula) (hcol : ∀ a,(f a).colegiadoId=a.colegiadoId)
    (a : Aluno) : D.alunoValido (f a)=e.alunoValido a := by
  have hk : ∀ a,(f a).id=a.id := hf
  simp only [Db.alunoValido,Db.colegiadoDe,hD,hc,hcol,hm,hk,Table.map_rows,List.all_map,
    Function.comp_def]

end closed

variable {grupo}

theorem dono_importado (d : Db) (rs : List (String × String)) (m : String) :
    (importado grupo colegiado d rs).dono m=
      ((comNovos colegiado d (rs.map (fun r => r.1))).dono m).map (renomeado d rs) :=
  dono_map (key_renomeado d rs) rfl (fun a => (renomeado_colunas d rs a).2.1) m

theorem comNovo_importado (d : Db) (rs : List (String × String)) (m : String) :
    (comNovo colegiado (importado grupo colegiado d rs) m).alunos=
      (comNovos colegiado d (rs.map (fun r => r.1)++[m])).alunos.map (renomeado d rs)
        (key_renomeado d rs) := by
  rw [comNovos_append,comNovo,comNovo,dono_importado,Option.isSome_map]
  split_ifs with h
  · rfl
  · cases colegiado with
    | none => rfl
    | some c =>
      -- the new aluno is on no earlier line, so the earlier lines do not rename it
      have hn : ultimoNome rs m=none := by
        rw [ultimoNome_eq_none]
        intro hm
        exact h (dono_comNovos d hm (.inl rfl))
      refine Table.rows_injective ?_ rfl
      have hr : ∀ i,renomeado d rs { id := i, matricula := some m, colegiadoId := some c.id }=
          { id := i, matricula := some m, colegiadoId := some c.id } := by
        intro i
        exact renomeado_of_none (by simpa using hn) d
      simp [importado,insereAluno,hr]

theorem comNovo_resto (D : Db) (m : String) :
    comNovo colegiado D m={ D with alunos := (comNovo colegiado D m).alunos } := by
  obtain ⟨novos,he,-⟩ := estende_comNovos colegiado D [m]
  exact he.resto

/-- Without a colegiado nobody is created. -/
theorem conhecida_of_dono {d : Db} {ms : List String} {m : String} {a : Aluno}
    (h : (comNovos colegiado d ms).dono m=some a) :
    colegiado.isSome=true ∨ (d.dono m).isSome=true := by
  cases colegiado with
  | some c => exact .inl rfl
  | none =>
    obtain ⟨novos,he,-⟩ := estende_comNovos none d ms
    have hn : novos=[] := by
      refine List.eq_nil_iff_forall_not_mem.mpr ?_
      intro x hx
      obtain ⟨-,-,c,hc,-⟩ := he.forma x hx
      cases hc
    rw [Db.dono,he.rows,hn,List.append_nil] at h
    exact .inr (by simp [Db.dono,h])

section line

variable {d : Db} {rs : List (String × String)} {r : String × String} {b : Aluno}

/-- Whether an aluno can be saved does not change when alunos are renamed. -/
theorem Estende.alunoValido_renomeado {D e : Db} {ms : List String} {novos : List Aluno}
    (he : Estende colegiado d e ms novos) (hb : b ∈ e.alunos.rows)
    (hD : D.alunos=e.alunos.map (renomeado d rs) (key_renomeado d rs))
    (hc : D.colegiados=d.colegiados) : D.alunoValido (renomeado d rs b)=d.alunoValido b := by
  have hce : D.colegiados=e.colegiados := by
    rw [hc,he.resto]
  rw [alunoValido_map (key_renomeado d rs) hD hce (fun a => (renomeado_colunas d rs a).2.1)
    (fun a => (renomeado_colunas d rs a).2.2)]
  exact he.alunoValido hb

theorem alunoValido_importado
    (hb : (comNovos colegiado d (rs.map (fun r => r.1)++[r.1])).dono r.1=some b) :
    (comNovo colegiado (importado grupo colegiado d rs) r.1).alunoValido (renomeado d rs b)=
      d.alunoValido b := by
  obtain ⟨novos,he,-⟩ := estende_comNovos colegiado d (rs.map (fun r => r.1)++[r.1])
  refine he.alunoValido_renomeado (Db.matricula_of_dono hb).1 (comNovo_importado d rs r.1) ?_
  rw [comNovo_resto]
  rfl

/-- The aluno a line finds is the only one it could rename. -/
theorem Estende.valido_iff {e : Db} {ms : List String} {novos : List Aluno} {m : String}
    (he : Estende colegiado d e ms novos) (hb : e.dono m=some b) {x : Aluno}
    (hx : x ∈ e.alunos.rows) :
    d.alunoValido x=true ∧ x.matricula=some m ↔ x.id=b.id ∧ d.alunoValido b=true := by
  rw [← he.alunoValido hx,← he.alunoValido (Db.matricula_of_dono hb).1]
  exact Db.valido_iff_dono hb hx

/-- The update of one line, on top of those before it. -/
theorem atualizado_importado
    (hb : (comNovos colegiado d (rs.map (fun r => r.1)++[r.1])).dono r.1=some b) :
    atualizado r.2 (comNovo colegiado (importado grupo colegiado d rs) r.1) (renomeado d rs b)=
      { importado grupo colegiado d rs with
        alunos := (comNovos colegiado d (rs.map (fun r => r.1)++[r.1])).alunos.map
          (renomeado d (rs++[r])) (key_renomeado d (rs++[r])) } := by
  obtain ⟨novos,he,-⟩ := estende_comNovos colegiado d (rs.map (fun r => r.1)++[r.1])
  have ht := (comNovos colegiado d (rs.map (fun r => r.1)++[r.1])).alunos.map_modify_of_iff
    (g := ativado r.2) (key_renomeado d rs) (key_renomeado d (rs++[r])) (fun _ => rfl)
    (fun _ => renomeado_append) (fun x hx => he.valido_iff hb (x := x) hx)
  rw [atualizado,alunoValido_importado hb,ativaAluno,comNovo_resto,(renomeado_colunas d rs b).1]
  dsimp only
  rw [comNovo_importado,← ht]
  split_ifs
  · rfl
  · rfl

/-- The update and the join row of one line, on top of those before it. -/
theorem juntado_importado
    (hb : (comNovos colegiado d (rs.map (fun r => r.1)++[r.1])).dono r.1=some b) :
    juntado grupo (atualizado r.2 (comNovo colegiado (importado grupo colegiado d rs) r.1)
      (renomeado d rs b)) b.id=importado grupo colegiado d (rs++[r]) := by
  have hrs : ∀ x ∈ rs,(comNovos colegiado d (rs.map (fun r => r.1)++[r.1])).dono x.1=
      (comNovos colegiado d (rs.map (fun r => r.1))).dono x.1 :=
    fun x hx => dono_comNovos_append d (List.mem_map_of_mem hx) r.1
  have hi : inscritos grupo (comNovos colegiado d (rs.map (fun r => r.1)++[r.1])) rs=
      inscritos grupo (comNovos colegiado d (rs.map (fun r => r.1))) rs := by
    unfold inscritos
    congr 1
    funext g
    exact List.filterMap_congr (fun x hx => by rw [hrs x hx])
  rw [atualizado_importado hb,importado,importado,List.map_append,List.map_singleton]
  cases grupo with
  | none => rfl
  | some g =>
    simp only [inscritos,Option.elim_some] at hi
    simp [juntado,junta,inscritos,hi,hb]

end line

/-- One line more, and the only two ways it can raise. -/
theorem passo_importado (d : Db) (rs : List (String × String)) (r : String × String) (d' : Db) :
    passo grupo colegiado (importado grupo colegiado d rs) r=some d' ↔
      ((colegiado.isSome=true ∨ (d.dono r.1).isSome=true) ∧ (grupo.isSome=true →
        ∀ a ∈ (comNovos colegiado d ((rs++[r]).map (fun r => r.1))).dono r.1,
          d.alunoValido a=true ∨ ativado r.2 a=a)) ∧
      d'=importado grupo colegiado d (rs++[r]) := by
  have hmap : (rs++[r]).map (fun r => r.1)=rs.map (fun r => r.1)++[r.1] := by simp
  have hdono : (comNovo colegiado (importado grupo colegiado d rs) r.1).dono r.1=
      ((comNovos colegiado d (rs.map (fun r => r.1)++[r.1])).dono r.1).map (renomeado d rs) :=
    dono_map (key_renomeado d rs) (comNovo_importado d rs r.1)
      (fun a => (renomeado_colunas d rs a).2.1) r.1
  rw [passo,hdono,hmap]
  cases hb : (comNovos colegiado d (rs.map (fun r => r.1)++[r.1])).dono r.1 with
  | none =>
    refine iff_of_false (by simp) ?_
    rintro ⟨⟨hc,-⟩,-⟩
    have hm : r.1 ∈ rs.map (fun r => r.1)++[r.1] := by simp
    simpa [hb] using dono_comNovos d hm hc
  | some b =>
    have hc := conhecida_of_dono hb
    have hs : (grupo.isSome=true → d.alunoValido b=true ∨ ativado r.2 (renomeado d rs b)=
        renomeado d rs b) ↔ (colegiado.isSome=true ∨ (d.dono r.1).isSome=true) ∧
        (grupo.isSome=true → ∀ a ∈ some b,d.alunoValido a=true ∨ ativado r.2 a=a) := by
      rw [and_iff_right hc]
      cases hv : d.alunoValido b with
      | true => simp [hv]
      | false => simp [hv,renomeado_of_invalido hv]
    rw [Option.map_some,Option.bind_some,agrupado,alunoValido_importado hb,
      (renomeado_colunas d rs b).1,juntado_importado hb,← hs]
    split_ifs with h
    · rw [Option.some_inj,and_iff_right h,eq_comm]
    · exact iff_of_false (by simp) (fun hd => h hd.1)

theorem importado_nil (d : Db) : importado grupo colegiado d []=d := by
  have hr : ∀ a,renomeado d [] a=a := by
    intro a
    refine renomeado_of_none ?_ d
    cases a.matricula <;> rfl
  have ht : (comNovos colegiado d []).alunos.map (renomeado d []) (key_renomeado d [])=
      d.alunos := d.alunos.map_eq_self _ (fun a _ => hr a)
  have hi : inscritos grupo (comNovos colegiado d []) []=[] := by
    cases grupo <;> rfl
  simp [importado,ht,hi]

theorem aceita_append (d : Db) (rs : List (String × String)) (r : String × String) :
    Aceita grupo colegiado d (rs++[r]) ↔ Aceita grupo colegiado d rs ∧
      (colegiado.isSome=true ∨ (d.dono r.1).isSome=true) ∧ (grupo.isSome=true →
        ∀ a ∈ (comNovos colegiado d ((rs++[r]).map (fun r => r.1))).dono r.1,
          d.alunoValido a=true ∨ ativado r.2 a=a) := by
  have hrs : ∀ x ∈ rs,(comNovos colegiado d ((rs++[r]).map (fun r => r.1))).dono x.1=
      (comNovos colegiado d (rs.map (fun r => r.1))).dono x.1 := by
    intro x hx
    rw [List.map_append]
    exact dono_comNovos_append d (List.mem_map_of_mem hx) r.1
  have hr : r ∈ rs++[r] := List.mem_append_right _ (List.mem_singleton_self r)
  constructor
  · rintro ⟨hc,hs⟩
    refine ⟨⟨fun x hx => hc x (List.mem_append_left _ hx),?_⟩,hc r hr,fun hg => hs hg r hr⟩
    intro hg x hx
    rw [← hrs x hx]
    exact hs hg x (List.mem_append_left _ hx)
  · rintro ⟨⟨hc,hs⟩,hcr,hsr⟩
    constructor
    · intro x hx
      rcases List.mem_append.mp hx with hx | hx
      · exact hc x hx
      · rw [List.mem_singleton.mp hx]
        exact hcr
    · intro hg x hx
      rcases List.mem_append.mp hx with hx | hx
      · rw [hrs x hx]
        exact hs hg x hx
      · rw [List.mem_singleton.mp hx]
        exact hsr hg

/-- The whole loop: which lines it takes and what it leaves. -/
theorem foldlM_passo (d : Db) (rs : List (String × String)) (d' : Db) :
    rs.foldlM (passo grupo colegiado) d=some d' ↔
      Aceita grupo colegiado d rs ∧ d'=importado grupo colegiado d rs := by
  induction rs using List.reverseRecOn generalizing d' with
  | nil =>
    rw [List.foldlM_nil,importado_nil]
    have ha : Aceita grupo colegiado d [] := ⟨by simp,by simp⟩
    exact Option.some_inj.trans (eq_comm.trans (and_iff_right ha).symm)
  | append_singleton rs r ih =>
    rw [List.foldlM_append,aceita_append]
    simp only [List.foldlM_cons,List.foldlM_nil,bind_pure]
    constructor
    · intro h
      obtain ⟨x,hx,hp⟩ := Option.bind_eq_some_iff.mp h
      obtain ⟨ha,rfl⟩ := (ih x).mp hx
      obtain ⟨hr,hd⟩ := (passo_importado d rs r d').mp hp
      exact ⟨⟨ha,hr⟩,hd⟩
    · rintro ⟨⟨ha,hr⟩,hd⟩
      exact Option.bind_eq_some_iff.mpr
        ⟨_,(ih _).mpr ⟨ha,rfl⟩,(passo_importado d rs r d').mpr ⟨hr,hd⟩⟩

/-- When the import completes, and what it leaves. -/
theorem importaEscalonamento_iff (grupo : Option Grupo) (colegiado : Option Colegiado)
    (contents : String) (s : World) :
    (((importaEscalonamento contents grupo colegiado).exec s).ok=true ↔
      Aceita grupo colegiado (esvaziado grupo s.db) (registros contents)) ∧
    (((importaEscalonamento contents grupo colegiado).exec s).ok=true →
      ((importaEscalonamento contents grupo colegiado).exec s).state.db=
        importado grupo colegiado (esvaziado grupo s.db) (registros contents)) := by
  obtain ⟨hok,hdb⟩ := writes_importaEscalonamento grupo colegiado contents s
  rw [hok]
  constructor
  · rw [Option.isSome_iff_exists]
    constructor
    · rintro ⟨d,hd⟩
      exact ((foldlM_passo _ _ d).mp hd).1
    · intro ha
      exact ⟨_,(foldlM_passo _ _ _).mpr ⟨ha,rfl⟩⟩
  · intro h
    obtain ⟨d,hd⟩ := Option.isSome_iff_exists.mp h
    rw [hdb d hd]
    exact ((foldlM_passo _ _ d).mp hd).2

end ImporterController

end Sisfila
