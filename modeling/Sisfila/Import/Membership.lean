import Sisfila.Import.Guarantees

namespace Sisfila

namespace ImporterController

variable {grupo : Option Grupo} {colegiado : Option Colegiado}

/-- A join row of the grupo whose aluno has the matricula. -/
def daMatricula (d : Db) (g : Nat) (m : String) (x : Nat × Nat) : Bool :=
  x.2==g && (d.alunos.find x.1).bind (fun a => a.matricula)==some m

/-- One row of the grupo for each of the matriculas, and no other row of the grupo. -/
structure GrupoExato (d : Db) (g : Nat) (ms : List String) : Prop where
  uma : ∀ m ∈ ms,d.alunosGrupos.countP (daMatricula d g m)=1
  so : ∀ x,(x,g) ∈ d.alunosGrupos → ∃ m ∈ ms,daMatricula d g m (x,g)=true

section rows

variable {d : Db} {g : Grupo} {rs : List (String × String)}

theorem alunosGrupos_importado : (importado grupo colegiado d rs).alunosGrupos=
    d.alunosGrupos++inscritos grupo (comNovos colegiado d (rs.map (fun r => r.1))) rs := rfl

theorem find_importado {m : String} {b : Aluno}
    (hb : (comNovos colegiado d (rs.map (fun r => r.1))).dono m=some b) :
    (importado grupo colegiado d rs).alunos.find b.id=some (renomeado d rs b) := by
  have hb : (comNovos colegiado d (rs.map (fun r => r.1))).alunos.find b.id=some b :=
    Table.find_of_mem (Db.matricula_of_dono hb).1
  rw [importado,Table.find_map,hb]
  rfl

/-- The row of a line is a row of its matricula. -/
theorem daMatricula_linha {r : String × String} {b : Aluno}
    (hb : (comNovos colegiado d (rs.map (fun r => r.1))).dono r.1=some b) (m : String) :
    daMatricula (importado grupo colegiado d rs) g.id m (b.id,g.id)=(r.1==m) := by
  simp [daMatricula,find_importado hb,(renomeado_colunas d rs b).2.1,(Db.matricula_of_dono hb).2]

/-- Each line adds one row. -/
theorem countP_inscritos (ha : Aceita (some g) colegiado d rs) (m : String) :
    (inscritos (some g) (comNovos colegiado d (rs.map (fun r => r.1))) rs).countP
      (daMatricula (importado (some g) colegiado d rs) g.id m)=
    (rs.map (fun r => r.1)).count m := by
  rw [inscritos,Option.elim_some,List.countP_filterMap,List.count,List.countP_map]
  refine List.countP_congr ?_
  intro r hr
  obtain ⟨b,hb⟩ := ha.dono hr
  simp [hb,daMatricula_linha hb m]

/-- The rows of a matricula: those there were before, and one for each of its lines. -/
theorem countP_importado (ha : Aceita (some g) colegiado d rs) (m : String) :
    (importado (some g) colegiado d rs).alunosGrupos.countP
      (daMatricula (importado (some g) colegiado d rs) g.id m)=
    d.alunosGrupos.countP (daMatricula (importado (some g) colegiado d rs) g.id m)+
      (rs.map (fun r => r.1)).count m := by
  rw [← countP_inscritos ha m,← List.countP_append]
  rfl

theorem GrupoExato.nodup (ha : Aceita (some g) colegiado d rs)
    (h : GrupoExato (importado (some g) colegiado d rs) g.id (rs.map (fun r => r.1))) :
    (rs.map (fun r => r.1)).Nodup := by
  rw [List.nodup_iff_count_le_one]
  intro m
  by_cases hm : m ∈ rs.map (fun r => r.1)
  · have huma := h.uma m hm
    rw [countP_importado ha] at huma
    omega
  · rw [List.count_eq_zero_of_not_mem hm]
    omega

/-- A row from before would be one too many for its matricula. -/
theorem GrupoExato.vazio (ha : Aceita (some g) colegiado d rs)
    (h : GrupoExato (importado (some g) colegiado d rs) g.id (rs.map (fun r => r.1))) (x : Nat) :
    (x,g.id) ∉ d.alunosGrupos := by
  intro hx
  obtain ⟨m,hm,hd⟩ := h.so x (List.mem_append_left _ hx)
  have huma := h.uma m hm
  rw [countP_importado ha] at huma
  have hold := List.countP_pos_iff.mpr ⟨_,hx,hd⟩
  have hnew := List.count_pos_iff.mpr hm
  omega

theorem grupoExato_importado (ha : Aceita (some g) colegiado d rs)
    (hnodup : (rs.map (fun r => r.1)).Nodup) (hvazio : ∀ x,(x,g.id) ∉ d.alunosGrupos) :
    GrupoExato (importado (some g) colegiado d rs) g.id (rs.map (fun r => r.1)) := by
  constructor
  · intro m hm
    have hzero : d.alunosGrupos.countP
        (daMatricula (importado (some g) colegiado d rs) g.id m)=0 := by
      rw [List.countP_eq_zero]
      intro x hx hd
      have hg : x.2=g.id := by
        have h := (Bool.and_eq_true _ _).mp hd
        simpa using h.1
      exact hvazio x.1 (hg ▸ hx)
    rw [countP_importado ha,hzero,List.count_eq_one_of_mem hnodup hm]
  · intro x hx
    rcases List.mem_append.mp hx with hx | hx
    · exact absurd hx (hvazio x)
    · obtain ⟨r,hr,hrx⟩ := List.mem_filterMap.mp hx
      obtain ⟨b,hb,he⟩ := Option.map_eq_some_iff.mp hrx
      rw [← he]
      exact ⟨r.1,List.mem_map_of_mem hr,by rw [daMatricula_linha hb]; simp⟩

theorem mem_esvaziado {x : Nat} : (x,g.id) ∈ (esvaziado (some g) d).alunosGrupos ↔
    (x,g.id) ∈ d.alunosGrupos ∧ d.alunos.find x=none := by
  simp [esvaziado,esvaziaGrupo]

end rows

/-- One row for each matricula: exactly if no two lines share one, and no row of the grupo names
an aluno that does not exist. -/
theorem importaEscalonamento_grupoExato (contents : String) (g : Grupo)
    (colegiado : Option Colegiado) (s : World)
    (hok : ((importaEscalonamento contents (some g) colegiado).exec s).ok=true) :
    GrupoExato ((importaEscalonamento contents (some g) colegiado).exec s).state.db g.id
      ((registros contents).map (fun r => r.1)) ↔
    ((registros contents).map (fun r => r.1)).Nodup ∧
      ∀ x,(x,g.id) ∈ s.db.alunosGrupos → (s.db.alunos.find x).isSome=true := by
  obtain ⟨hiff,hdb⟩ := importaEscalonamento_iff (some g) colegiado contents s
  have ha := hiff.mp hok
  rw [hdb hok]
  constructor
  · intro h
    refine ⟨h.nodup ha,?_⟩
    intro x hx
    by_contra hn
    exact h.vazio ha x (mem_esvaziado.mpr ⟨hx,Option.not_isSome_iff_eq_none.mp hn⟩)
  · rintro ⟨hnodup,hex⟩
    refine grupoExato_importado ha hnodup ?_
    intro x hx
    obtain ⟨hx,hn⟩ := mem_esvaziado.mp hx
    simpa [hn] using hex x hx

/-- Two lines with different matriculas. -/
theorem importaEscalonamento_grupoExato_cenario :
    GrupoExato ((importaEscalonamento "1 A\n2 B" (some Cenario.grupo) (some { id := 1 })).exec
      (Cenario.turma Cenario.veterano [(1,1)])).state.db 1
      ((registros "1 A\n2 B").map (fun r => r.1)) :=
  (importaEscalonamento_grupoExato "1 A\n2 B" Cenario.grupo (some { id := 1 })
    (Cenario.turma Cenario.veterano [(1,1)]) (by decide +kernel)).mpr (by
      refine ⟨by decide +kernel,?_⟩
      intro x hx
      have hx : x=1 := congrArg Prod.fst (List.mem_singleton.mp hx)
      subst hx
      decide +kernel)

/-- A line given twice puts its aluno in the grupo twice. -/
theorem importaEscalonamento_repete :
    ((importaEscalonamento "1 A\n1 A" (some Cenario.grupo) (some { id := 1 })).exec
      (Cenario.turma Cenario.veterano [])).ok=true ∧
    ¬GrupoExato ((importaEscalonamento "1 A\n1 A" (some Cenario.grupo) (some { id := 1 })).exec
      (Cenario.turma Cenario.veterano [])).state.db 1
      ((registros "1 A\n1 A").map (fun r => r.1)) := by
  refine ⟨by decide +kernel,?_⟩
  intro h
  have htwo : ((importaEscalonamento "1 A\n1 A" (some Cenario.grupo) (some { id := 1 })).exec
      (Cenario.turma Cenario.veterano [])).state.db.alunosGrupos.countP
        (daMatricula ((importaEscalonamento "1 A\n1 A" (some Cenario.grupo)
          (some { id := 1 })).exec (Cenario.turma Cenario.veterano [])).state.db 1 "1")=2 := by
    decide +kernel
  have hone := h.uma "1" (by decide +kernel)
  omega

/-! The import once more. -/

theorem comNovos_of_dono {d : Db} {ms : List String} (h : ∀ m ∈ ms,(d.dono m).isSome=true) :
    comNovos colegiado d ms=d := by
  induction ms with
  | nil => rfl
  | cons m ms ih =>
    have hm : comNovo colegiado d m=d := if_pos (h m List.mem_cons_self)
    rw [comNovos,List.foldl_cons,hm]
    exact ih (fun x hx => h x (List.mem_cons_of_mem m hx))

theorem alunos_esvaziado (d : Db) : (esvaziado grupo d).alunos=d.alunos := by
  cases grupo <;> rfl

theorem colegiados_esvaziado (d : Db) : (esvaziado grupo d).colegiados=d.colegiados := by
  cases grupo <;> rfl

section again

variable {d : Db} {rs : List (String × String)}

/-- The tables a second run starts from. -/
abbrev denovo (grupo : Option Grupo) (colegiado : Option Colegiado) (d : Db)
    (rs : List (String × String)) : Db := esvaziado grupo (importado grupo colegiado d rs)

theorem dono_denovo (m : String) : (denovo grupo colegiado d rs).dono m=
    ((comNovos colegiado d (rs.map (fun r => r.1))).dono m).map (renomeado d rs) := by
  rw [← dono_importado,Db.dono,alunos_esvaziado]
  rfl

theorem Aceita.dono_denovo (ha : Aceita grupo colegiado d rs) {m : String}
    (hm : m ∈ rs.map (fun r => r.1)) : ((denovo grupo colegiado d rs).dono m).isSome=true := by
  obtain ⟨r,hr,rfl⟩ := List.mem_map.mp hm
  obtain ⟨b,hb⟩ := ha.dono hr
  simp [ImporterController.dono_denovo,hb]

theorem Aceita.comNovos_denovo (ha : Aceita grupo colegiado d rs) :
    comNovos colegiado (denovo grupo colegiado d rs) (rs.map (fun r => r.1))=
      denovo grupo colegiado d rs :=
  comNovos_of_dono (fun _ hm => ha.dono_denovo hm)

theorem alunoValido_denovo {b : Aluno}
    (hb : b ∈ (comNovos colegiado d (rs.map (fun r => r.1))).alunos.rows) :
    (denovo grupo colegiado d rs).alunoValido (renomeado d rs b)=d.alunoValido b := by
  obtain ⟨novos,he,-⟩ := estende_comNovos colegiado d (rs.map (fun r => r.1))
  exact he.alunoValido_renomeado hb (alunos_esvaziado _) (colegiados_esvaziado _)

/-- An aluno that already has its last name keeps it. -/
theorem renomeado_denovo {b : Aluno}
    (hb : b ∈ (comNovos colegiado d (rs.map (fun r => r.1))).alunos.rows) :
    renomeado (denovo grupo colegiado d rs) rs (renomeado d rs b)=renomeado d rs b := by
  have hv : (denovo grupo colegiado d rs).alunoValido (renomeado d rs b)=d.alunoValido b :=
    alunoValido_denovo hb
  rw [renomeado,hv,(renomeado_colunas d rs b).2.1]
  cases hvb : d.alunoValido b with
  | false => rfl
  | true =>
    cases hn : b.matricula.bind (ultimoNome rs) with
    | none => rfl
    | some n => simp [renomeado,hvb,hn,ativado]

/-- The second run takes every line the first one took. -/
theorem Aceita.denovo (ha : Aceita grupo colegiado d rs) :
    Aceita grupo colegiado (denovo grupo colegiado d rs) rs where
  conhecida r hr := .inr (ha.dono_denovo (List.mem_map_of_mem hr))
  salva hg r hr a hm := by
    obtain ⟨b,hb⟩ := ha.dono hr
    rw [ha.comNovos_denovo,ImporterController.dono_denovo,hb] at hm
    rw [← Option.some.inj hm,alunoValido_denovo (Db.matricula_of_dono hb).1]
    cases hv : d.alunoValido b with
    | true => exact .inl rfl
    | false =>
      rw [renomeado_of_invalido hv]
      exact .inr ((ha.salva hg r hr b hb).resolve_left (by simp [hv]))

theorem Aceita.alunos_denovo (ha : Aceita grupo colegiado d rs) :
    (importado grupo colegiado (ImporterController.denovo grupo colegiado d rs) rs).alunos=
      (importado grupo colegiado d rs).alunos := by
  rw [importado]
  dsimp only
  rw [ha.comNovos_denovo]
  refine Table.rows_injective ?_ ?_
  · rw [Table.map_rows,alunos_esvaziado,importado,Table.map_rows,List.map_map]
    exact List.map_congr_left (fun b hb => renomeado_denovo hb)
  · rw [Table.map_next,alunos_esvaziado]

theorem Aceita.inscritos_denovo (ha : Aceita grupo colegiado d rs) :
    inscritos grupo (comNovos colegiado (ImporterController.denovo grupo colegiado d rs)
      (rs.map (fun r => r.1))) rs=
    inscritos grupo (comNovos colegiado d (rs.map (fun r => r.1))) rs := by
  rw [ha.comNovos_denovo]
  unfold inscritos
  congr 1
  funext g
  refine List.filterMap_congr ?_
  intro r _
  rw [ImporterController.dono_denovo,Option.map_map]
  congr 1
  funext b
  exact congrArg (·,g.id) (renomeado_colunas d rs b).1

/-- The rows of the grupo that stay when it is emptied again: those of no aluno, even now. -/
theorem alunosGrupos_denovo (g : Grupo) : (denovo (some g) colegiado d rs).alunosGrupos=
    d.alunosGrupos.filter
      (fun x => !(x.2==g.id && ((importado (some g) colegiado d rs).alunos.find x.1).isSome)) := by
  have hnone : (inscritos (some g) (comNovos colegiado d (rs.map (fun r => r.1))) rs).filter
      (fun x => !(x.2==g.id && ((importado (some g) colegiado d rs).alunos.find x.1).isSome))=[] := by
    rw [List.filter_eq_nil_iff]
    intro x hx
    obtain ⟨r,hr,hrx⟩ := List.mem_filterMap.mp hx
    obtain ⟨b,hb,rfl⟩ := Option.map_eq_some_iff.mp hrx
    simp [find_importado hb]
  rw [denovo,esvaziado,Option.elim_some,esvaziaGrupo]
  dsimp only
  rw [alunosGrupos_importado,List.filter_append,hnone,List.append_nil]

end again

/-- The outcome of the second of two runs. -/
def duasVezes (contents : String) (grupo : Option Grupo) (colegiado : Option Colegiado)
    (s : World) : Outcome Evento World Erro String :=
  (importaEscalonamento contents grupo colegiado).exec
    ((importaEscalonamento contents grupo colegiado).exec s).state

theorem filter_count {α : Type} [BEq α] [LawfulBEq α] (p : α → Bool) (l r : List α) :
    (∀ x,(l.filter p++r).count x=(l++r).count x) ↔ ∀ x ∈ l,p x=true := by
  constructor
  · intro h x hx
    by_contra hp
    have hc := h x
    have hz : (l.filter p).count x=0 := by
      refine List.count_eq_zero_of_not_mem ?_
      intro hm
      exact hp (List.mem_filter.mp hm).2
    have hl := List.count_pos_iff.mpr hx
    rw [List.count_append,List.count_append] at hc
    omega
  · intro h x
    rw [List.filter_eq_self.mpr h]

/-- A second run completes and leaves the alunos as they are. It leaves the memberships as they are
exactly if no row of the grupo had the id of an aluno that was still to be created. -/
theorem importaEscalonamento_duasVezes (contents : String) (grupo : Option Grupo)
    (colegiado : Option Colegiado) (s : World)
    (hok : ((importaEscalonamento contents grupo colegiado).exec s).ok=true) :
    (duasVezes contents grupo colegiado s).ok=true ∧
    (duasVezes contents grupo colegiado s).state.db.alunos=
      ((importaEscalonamento contents grupo colegiado).exec s).state.db.alunos ∧
    ((∀ x,(duasVezes contents grupo colegiado s).state.db.alunosGrupos.count x=
      ((importaEscalonamento contents grupo colegiado).exec s).state.db.alunosGrupos.count x) ↔
      ∀ g ∈ grupo,∀ x,(x,g.id) ∈ s.db.alunosGrupos → s.db.alunos.find x=none →
        ((importaEscalonamento contents grupo colegiado).exec s).state.db.alunos.find x=none) := by
  obtain ⟨hiff,hdb⟩ := importaEscalonamento_iff grupo colegiado contents s
  obtain ⟨hiff₂,hdb₂⟩ := importaEscalonamento_iff grupo colegiado contents
    ((importaEscalonamento contents grupo colegiado).exec s).state
  have ha := hiff.mp hok
  rw [hdb hok] at hiff₂ hdb₂ ⊢
  have hok₂ := hiff₂.mpr ha.denovo
  refine ⟨hok₂,?_⟩
  rw [duasVezes,hdb₂ hok₂]
  generalize registros contents=rs at ha ⊢
  refine ⟨ha.alunos_denovo,?_⟩
  cases grupo with
  | none => simp [importado,inscritos,esvaziado]
  | some g =>
    rw [alunosGrupos_importado,ha.inscritos_denovo,alunosGrupos_denovo,alunosGrupos_importado,
      filter_count]
    constructor
    · intro h g' hg' x hx hn
      rw [← Option.some.inj hg'] at hx
      simpa using h (x,g.id) (mem_esvaziado.mpr ⟨hx,hn⟩)
    · intro h x hx
      by_cases hg : x.2=g.id
      · have hx : (x.1,g.id) ∈ (esvaziado (some g) s.db).alunosGrupos := hg ▸ hx
        obtain ⟨hx,hn⟩ := mem_esvaziado.mp hx
        simp [h g rfl x.1 hx hn]
      · simp [hg]

/-- A line given twice, with two names. -/
theorem importaEscalonamento_duasVezes_cenario :
    (duasVezes "1 A\n2 B\n1 C" (some Cenario.grupo) (some { id := 1 })
      (Cenario.turma Cenario.veterano [(1,1)])).ok=true ∧
    ∀ x,(duasVezes "1 A\n2 B\n1 C" (some Cenario.grupo) (some { id := 1 })
      (Cenario.turma Cenario.veterano [(1,1)])).state.db.alunosGrupos.count x=
      ((importaEscalonamento "1 A\n2 B\n1 C" (some Cenario.grupo) (some { id := 1 })).exec
        (Cenario.turma Cenario.veterano [(1,1)])).state.db.alunosGrupos.count x := by
  have h := importaEscalonamento_duasVezes "1 A\n2 B\n1 C" (some Cenario.grupo)
    (some { id := 1 }) (Cenario.turma Cenario.veterano [(1,1)]) (by decide +kernel)
  refine ⟨h.1,h.2.2.mpr ?_⟩
  intro g hg x hx hn
  have hx : x=1 := congrArg Prod.fst (List.mem_singleton.mp hx)
  subst hx
  cases hn

/-- The grupo has a row for aluno 1 before there is one; the first run leaves it beside the row of
the new aluno, the second removes both and writes one. -/
theorem importaEscalonamento_duasVezes_orfa :
    ((importaEscalonamento "1 A" (some Cenario.grupo) (some { id := 1 })).exec
      (Cenario.turma .empty [(1,1)])).ok=true ∧
    ((importaEscalonamento "1 A" (some Cenario.grupo) (some { id := 1 })).exec
      (Cenario.turma .empty [(1,1)])).state.db.alunosGrupos.count (1,1)=2 ∧
    (duasVezes "1 A" (some Cenario.grupo) (some { id := 1 })
      (Cenario.turma .empty [(1,1)])).state.db.alunosGrupos.count (1,1)=1 := by
  decide +kernel

end ImporterController

end Sisfila
