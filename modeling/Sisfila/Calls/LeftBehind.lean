import Sisfila.Calls.Marks

namespace Sisfila

namespace Registro

variable {x y : Registro} {r : Requisicao}

theorem mem_rows {x : Registro} {v : VagaBase} {d : Option ℚ} (h : (v,d) ∈ x.chamadas) :
    v ∈ x.core.vagas.rows := by
  rw [← x.linhas]
  exact List.mem_map.mpr ⟨_,h,rfl⟩

/-- Every row after a call is a row before it, with or without the new date. -/
theorem exists_of_mem_chama {f : FilaBase} {t : ℚ} {w v : VagaBase} {d : Option ℚ}
    (hw : x.core.vagaEm f.id (f.posicao+1)=some w) (h : (v,d) ∈ x.chama f t) :
    ∃ e,(v,e) ∈ x.chamadas ∧ x.core.carimba w t (v,e)=(v,d) := by
  unfold chama at h
  rw [hw] at h
  obtain ⟨⟨v',e⟩,hm,he⟩ := List.mem_map.mp h
  have hv : v'=v := by
    have hf := x.core.carimba_fst w t (v',e)
    rw [he] at hf
    exact hf.symm
  subst hv
  exact ⟨e,hm,he⟩

/-- A call adds no row and takes no date away. -/
theorem of_mem_chama {f : FilaBase} {t : ℚ} {v : VagaBase} {d : Option ℚ}
    (h : (v,d) ∈ x.chama f t) : ∃ e,(v,e) ∈ x.chamadas ∧ (e.isSome=true → d.isSome=true) ∧
      (d≠e → ∃ w,x.core.vagaEm f.id (f.posicao+1)=some w ∧ v.alunoId=w.alunoId ∧
        v.posicao=w.posicao) := by
  cases hw : x.core.vagaEm f.id (f.posicao+1) with
  | none =>
    unfold chama at h
    rw [hw] at h
    exact ⟨d,h,id,fun hne => absurd rfl hne⟩
  | some w =>
    obtain ⟨e,hm,he⟩ := exists_of_mem_chama hw h
    have hd : (x.core.carimba w t (v,e)).2=d := by rw [he]
    refine ⟨e,hm,?_,?_⟩
    · intro hs
      rw [← hd]
      exact x.core.isSome_carimba w t _ hs
    · intro hne
      rw [← hd] at hne
      exact ⟨w,rfl,x.core.carimba_ne w t _ hne⟩

/-- What a call of `f` does to the row of fila `i`. -/
theorem find_chama {f f' : FilaBase} {i : Nat} {ms : Table Mesa} {c : Nat}
    (hk : y.core={ x.core.incrementa f'.id 1 with mesas := ms }) (hf' : x.core.proximaFila c=some f')
    (hf : x.core.filas.find i=some f) :
    if f'.id=i then f'=f ∧ y.core.filas.find i=some { f with posicao := f.posicao+1 }
      else y.core.filas.find i=some f := by
  have hfind : y.core.filas.find i=(x.core.filas.find i).map
      (fun r => if Row.key r=f'.id then { r with posicao := r.posicao+1 } else r) := by
    rw [hk]
    exact Table.find_modify x.core.filas f'.id i (fun r => { r with posicao := r.posicao+1 })
      (fun _ => rfl)
  obtain rfl : f.id=i := Table.key_of_find hf
  rw [hf,Option.map_some,Row.key_filaBase] at hfind
  split_ifs with h
  · have hff := Core.proximaFila_find hf'
    rw [h,hf] at hff
    rw [if_pos h.symm] at hfind
    exact ⟨(Option.some.inj hff).symm,hfind⟩
  · rw [if_neg (fun he => h he.symm)] at hfind
    exact hfind

/-- Everybody of fila `i` between its first pointer `p₀` and its pointer has been called. -/
structure EmDia (i : Nat) (p₀ : Int) (x : Registro) (f : FilaBase) : Prop where
  fila : x.core.filas.find i=some f
  avancou : p₀≤f.posicao
  naLista : f.posicao≤p₀ ∨ f.posicao≤((x.core.vagasDe i).length : Int)
  numerada : Numbered VagaBase.posicao (x.core.vagasDe i)
  validas : ∀ v ∈ x.core.vagasDe i,x.core.vagaValida v=true
  datas : ∀ v d,(v,d) ∈ x.chamadas → v.filaId=some i → ∀ q ∈ v.posicao,p₀<q → q≤f.posicao →
    d.isSome=true

namespace EmDia

variable {i : Nat} {p₀ : Int} {f : FilaBase}

/-- A step that leaves the fila and its vagas alone and takes no date away. -/
theorem congr (h : x.EmDia i p₀ f) (hf : y.core.filas.find i=some f)
    (hde : y.core.vagasDe i=x.core.vagasDe i) (hval : ∀ v,y.core.vagaValida v=x.core.vagaValida v)
    (hd : ∀ v d,(v,d) ∈ y.chamadas → v.filaId=some i →
      ∃ e,(v,e) ∈ x.chamadas ∧ (e.isSome=true → d.isSome=true)) : y.EmDia i p₀ f where
  fila := hf
  avancou := h.avancou
  naLista := by rw [hde]; exact h.naLista
  numerada := by rw [hde]; exact h.numerada
  validas := by
    intro v hv
    rw [hde] at hv
    rw [hval]
    exact h.validas v hv
  datas := by
    intro v d hm hvf q hq h0 h1
    obtain ⟨e,he,hs⟩ := hd v d hm hvf
    exact hs (h.datas v e he hvf q hq h0 h1)

/-- The new vaga of the fila stands right after the list, where the pointer has not been. -/
theorem entra (h : x.EmDia i p₀ f) {a : Aluno} {t : ℚ} (ha : a ∈ x.core.alunos.rows)
    (hk : y.core=x.core.insereVaga a.id i (x.core.maiorPosicao i) t)
    (hc : y.chamadas=x.chamadas++[(x.core.novaVaga a.id i (x.core.maiorPosicao i) t,none)]) :
    y.EmDia i p₀ f := by
  have hn : x.core.maiorPosicao i=(x.core.vagasDe i).length := h.numerada.foldr_max
  have hde := x.core.vagasDe_insereVaga a.id i (x.core.maiorPosicao i) t i
  rw [← hk,if_pos rfl] at hde
  have hl := h.naLista
  refine ⟨by rw [hk]; exact h.fila,h.avancou,?_,?_,?_,?_⟩
  · rw [hde,List.length_append]
    push_cast
    omega
  · rw [hde]
    refine h.numerada.append ?_
    simp [Core.novaVaga,hn]
  · intro v hv
    have hval : y.core.vagaValida v=x.core.vagaValida v := by
      rw [hk]
      rfl
    rw [hval]
    rw [hde,List.mem_append,List.mem_singleton] at hv
    rcases hv with hv | rfl
    · exact h.validas v hv
    · have hfind : x.core.alunos.find a.id=some a := Table.find_of_mem ha
      simp [Core.vagaValida,Core.novaVaga,hfind,h.fila]
  · intro v d hm hvf q hq h0 h1
    rw [hc,List.mem_append,List.mem_singleton] at hm
    rcases hm with hm | hm
    · exact h.datas v d hm hvf q hq h0 h1
    · obtain ⟨rfl,rfl⟩ := Prod.mk.inj hm
      simp only [Core.novaVaga,Option.mem_def,Option.some.injEq] at hq
      rw [hn] at hq
      push_cast at hq
      omega

theorem inscreve (h : x.EmDia i p₀ f) {a : Aluno} {j : Nat} {t : ℚ} (ha : a ∈ x.core.alunos.rows)
    (hk : y.core=x.core.insereVaga a.id j (x.core.maiorPosicao j) t)
    (hc : y.chamadas=x.chamadas++[(x.core.novaVaga a.id j (x.core.maiorPosicao j) t,none)]) :
    y.EmDia i p₀ f := by
  by_cases hj : j=i
  · subst hj
    exact h.entra ha hk hc
  · have hde := x.core.vagasDe_insereVaga a.id j (x.core.maiorPosicao j) t i
    rw [← hk,if_neg hj] at hde
    refine h.congr (by rw [hk]; exact h.fila) hde (fun v => by rw [hk]; rfl) ?_
    intro v d hm hvf
    rw [hc,List.mem_append,List.mem_singleton] at hm
    rcases hm with hm | hm
    · exact ⟨d,hm,id⟩
    · obtain ⟨rfl,rfl⟩ := Prod.mk.inj hm
      exact absurd (Option.some.inj hvf) hj

/-- The vaga at the next position gets its date when the pointer gets there. -/
theorem data_chama (h : x.EmDia i p₀ f) (t : ℚ) {v : VagaBase} {d : Option ℚ}
    (hm : (v,d) ∈ x.chama f t) (hvf : v.filaId=some i) (hq : v.posicao=some (f.posicao+1)) :
    d.isSome=true := by
  obtain ⟨e,he,-,-⟩ := of_mem_chama hm
  have hid : f.id=i := Table.key_of_find h.fila
  have hv := Core.mem_vagasDe.mpr ⟨mem_rows he,hvf⟩
  have hw : x.core.vagaEm f.id (f.posicao+1)=some v := by
    rw [hid]
    cases hw : x.core.vagaEm i (f.posicao+1) with
    | none =>
      have hno := List.find?_eq_none.mp hw v hv
      simp [hq] at hno
    | some w =>
      obtain ⟨hwr,hwf,hwq⟩ := Core.mem_of_vagaEm hw
      congr 1
      exact h.numerada.eq_of_pos (Core.mem_vagasDe.mpr ⟨hwr,hwf⟩) hv (hwq.trans hq.symm)
  obtain ⟨e',-,hc⟩ := exists_of_mem_chama hw hm
  rw [x.core.carimba_self t e' (h.validas v hv)] at hc
  obtain ⟨-,rfl⟩ := Prod.mk.inj hc
  rfl

theorem chama (h : x.EmDia i p₀ f) {c : Nat} {f' : FilaBase} {t : ℚ} {ms : Table Mesa}
    (hf' : x.core.proximaFila c=some f') (hk : y.core={ x.core.incrementa f'.id 1 with mesas := ms })
    (hc : y.chamadas=x.chama f' t) : ∃ g,y.EmDia i p₀ g := by
  have hfind := find_chama hk hf' h.fila
  have hde : y.core.vagasDe i=x.core.vagasDe i := by
    rw [hk]
    rfl
  have hval : ∀ v,y.core.vagaValida v=x.core.vagaValida v := by
    intro v
    rw [hk]
    exact x.core.vagaValida_incrementa v f'.id 1
  by_cases hi : f'.id=i
  · rw [if_pos hi] at hfind
    obtain ⟨rfl,hfind⟩ := hfind
    have hlt := Core.proximaFila_lt hf'
    rw [hi] at hlt
    have hav := h.avancou
    refine ⟨_,hfind,?_,?_,by rw [hde]; exact h.numerada,?_,?_⟩
    · show p₀≤f'.posicao+1
      omega
    · right
      rw [hde]
      show f'.posicao+1≤_
      omega
    · intro v hv
      rw [hde] at hv
      rw [hval]
      exact h.validas v hv
    · intro v d hm hvf q hq h0 h1
      rw [hc] at hm
      have h1' : q≤f'.posicao+1 := h1
      by_cases hq' : q≤f'.posicao
      · obtain ⟨e,he,hs,-⟩ := of_mem_chama hm
        exact hs (h.datas v e he hvf q hq h0 hq')
      · obtain rfl : q=f'.posicao+1 := by omega
        exact h.data_chama t hm hvf hq
  · rw [if_neg hi] at hfind
    refine ⟨f,h.congr hfind hde hval ?_⟩
    intro v d hm _
    rw [hc] at hm
    obtain ⟨e,he,hs,-⟩ := of_mem_chama hm
    exact ⟨e,he,hs⟩

theorem passo (h : x.EmDia i p₀ f) (hp : x.Passo r y) : ∃ g,y.EmDia i p₀ g := by
  cases hp with
  | nada _ _ ms hk hc =>
    refine ⟨f,h.congr (by rw [hk]; exact h.fila) (by rw [hk]; rfl) (fun v => by rw [hk]; rfl) ?_⟩
    intro v d hm _
    rw [hc] at hm
    exact ⟨d,hm,id⟩
  | inscreve u m _ a g f' t ha hm hg hgf hf hk hc => exact ⟨f,h.inscreve ha hk hc⟩
  | chama u c _ f' t ms hf hk hc => exact h.chama hf hk hc

end EmDia

/-- Everybody was enrolled through their grupo, and nobody of fila `i` at or before `p₀` has been
called. -/
structure Esquece (i : Nat) (p₀ : Int) (x : Registro) : Prop where
  grupo : ∀ v ∈ x.core.vagas.rows,∃ a ∈ x.core.alunos.rows,v.alunoId=some a.id ∧
    ∃ g,a.primeiroGrupo x.core.grupos x.core.alunosGrupos=some g ∧ g.filaId=v.filaId
  datas : ∀ v d,(v,d) ∈ x.chamadas → v.filaId=some i → ∀ q ∈ v.posicao,q≤p₀ → d=none

namespace Esquece

variable {i : Nat} {p₀ : Int} {f : FilaBase}

/-- The vagas of one aluno are all in one fila. -/
theorem filaId_eq (h : x.Esquece i p₀) {v w : VagaBase} (hv : v ∈ x.core.vagas.rows)
    (hw : w ∈ x.core.vagas.rows) (ha : v.alunoId=w.alunoId) : v.filaId=w.filaId := by
  obtain ⟨a,har,hva,g,hg,hgf⟩ := h.grupo v hv
  obtain ⟨b,hbr,hwb,g',hg',hgf'⟩ := h.grupo w hw
  obtain rfl : a=b := by
    refine x.core.alunos.key_injective har hbr ?_
    rw [hva,hwb] at ha
    exact Option.some.inj ha
  rw [hg] at hg'
  rw [← hgf,← hgf',Option.some.inj hg']

theorem passo (h : x.Esquece i p₀) (hd : x.EmDia i p₀ f) (hp : x.Passo r y) : y.Esquece i p₀ := by
  cases hp with
  | nada _ _ ms hk hc =>
    obtain ⟨k,cs,hl⟩ := y
    subst hk hc
    exact ⟨h.grupo,h.datas⟩
  | inscreve u m _ a g f' t ha hm hg hgf hf hk hc =>
    obtain ⟨k,cs,hl⟩ := y
    subst hk hc
    constructor
    · intro v hv
      rw [Core.rows_insereVaga,List.mem_append,List.mem_singleton] at hv
      rcases hv with hv | rfl
      · exact h.grupo v hv
      · exact ⟨a,ha,rfl,g,hg,hgf⟩
    · intro v d hm' hvf q hq hle
      rcases List.mem_append.mp hm' with hm' | hm'
      · exact h.datas v d hm' hvf q hq hle
      · obtain ⟨rfl,rfl⟩ := Prod.mk.inj (List.mem_singleton.mp hm')
        rfl
  | chama u c _ f' t ms hf hk hc =>
    obtain ⟨k,cs,hl⟩ := y
    subst hk hc
    refine ⟨h.grupo,?_⟩
    intro v d hm hvf q hq hle
    obtain ⟨e,he,-,hne⟩ := of_mem_chama hm
    have he0 := h.datas v e he hvf q hq hle
    by_contra hd0
    obtain ⟨w,hw,hva,hvq⟩ := hne (fun hde => hd0 (hde.trans he0))
    obtain ⟨hwr,hwf,hwq⟩ := Core.mem_of_vagaEm hw
    -- The vaga called belongs to the same aluno, so it is in fila `i` too, past its pointer.
    have hfi : f'.id=i := by
      have hff := h.filaId_eq (mem_rows he) hwr hva
      rw [hvf,hwf] at hff
      exact (Option.some.inj hff).symm
    have hfd := Core.proximaFila_find hf
    rw [hfi,hd.fila] at hfd
    obtain rfl := Option.some.inj hfd
    rw [Option.mem_def.mp hq,hwq] at hvq
    have hq' : q=f.posicao+1 := Option.some.inj hvq
    have h0 := hd.avancou
    omega

end Esquece

theorem emDia_inicio {d : Db} {i : Nat} {f₀ : Fila} (hf : d.filas.find i=some f₀)
    (hv : d.vagasDe (some i)=[]) : d.registro.EmDia i f₀.posicao f₀.toFilaBase := by
  have hde : d.core.vagasDe i=[] := by rw [Db.vagasDe_core,hv]; rfl
  have hno : ∀ v d',(v,d') ∈ d.registro.chamadas → v.filaId≠some i := by
    intro v d' hm hvf
    have hmem := Core.mem_vagasDe.mpr ⟨mem_rows hm,hvf⟩
    rw [Db.registro_core,hde] at hmem
    cases hmem
  refine ⟨?_,le_refl _,Or.inl (le_refl _),?_,?_,?_⟩
  · rw [Db.registro_core,Db.findFila_core,hf]
    rfl
  · rw [Db.registro_core,hde]
    exact Numbered.nil
  · rw [Db.registro_core,hde]
    simp
  · intro v d' hm hvf
    exact absurd hvf (hno v d' hm)

end Registro

/-- Nobody of fila `i` is at or behind its pointer without having been called. -/
def Db.SemAtraso (d : Db) (i : Nat) : Prop :=
  ∀ f ∈ d.filas.find i,∀ v ∈ d.vagasDe (some i),∀ q ∈ v.posicao,q≤f.posicao →
    v.dataChamada.isSome=true

instance (d : Db) (i : Nat) : Decidable (d.SemAtraso i) := by
  unfold Db.SemAtraso
  infer_instance

namespace Db

variable {d : Db} {i : Nat} {p₀ : Int} {g : FilaBase}

theorem mem_chamadas {v : Vaga} (h : v ∈ d.vagasDe (some i)) :
    (v.toVagaBase,v.dataChamada) ∈ d.registro.chamadas ∧ v.filaId=some i := by
  obtain ⟨hr,hf⟩ := List.mem_filter.mp h
  exact ⟨List.mem_map.mpr ⟨v,hr,rfl⟩,beq_iff_eq.mp hf⟩

theorem semAtraso_of_vazia (h : d.vagasDe (some i)=[]) : d.SemAtraso i := by
  intro f _ v hv
  rw [h] at hv
  cases hv

/-- No vaga stands at 0 or before, so a pointer that started there has passed them all. -/
theorem semAtraso_of_emDia (h : d.registro.EmDia i p₀ g) (h0 : p₀≤0) : d.SemAtraso i := by
  intro f hf v hv q hq hle
  have hfila := h.fila
  rw [registro_core,findFila_core,Option.mem_def.mp hf] at hfila
  obtain rfl := Option.some.inj hfila
  have hq1 := v.posicao_pos q hq
  obtain ⟨hm,hvf⟩ := mem_chamadas hv
  exact h.datas _ _ hm hvf q hq (by omega) hle

/-- The list is numbered, so its first vaga has `posicao` 1, which no call has reached. -/
theorem not_semAtraso (h : d.registro.EmDia i p₀ g) (he : d.registro.Esquece i p₀) (h1 : 1≤p₀)
    (hne : d.vagasDe (some i)≠[]) : ¬d.SemAtraso i := by
  intro hs
  obtain ⟨f,hf,rfl⟩ : ∃ f,d.filas.find i=some f ∧ f.toFilaBase=g := by
    have hfila := h.fila
    rw [registro_core,findFila_core] at hfila
    exact Option.map_eq_some_iff.mp hfila
  obtain ⟨v,vs,hvs⟩ := List.exists_cons_of_ne_nil hne
  have hv : v ∈ d.vagasDe (some i) := by
    rw [hvs]
    exact List.mem_cons_self
  have hq : v.posicao=some 1 := by
    have hnum := h.numerada 0 v.toVagaBase
    rw [registro_core,vagasDe_core,hvs] at hnum
    exact hnum rfl
  have hle : 1≤f.posicao := by
    have hav := h.avancou
    omega
  obtain ⟨hm,hvf⟩ := mem_chamadas hv
  have hnone := he.datas _ _ hm hvf 1 hq h1
  have hsome := hs f hf v hv 1 hq hle
  rw [hnone] at hsome
  cases hsome

end Db

/-- The request would enrol an aluno whose grupo leads to fila `i`. -/
def Requisicao.EntraEm (d : Db) (i : Nat) : Requisicao → Prop
  | .inscrever _ m => ∃ a ∈ d.alunos.rows,a.matricula=m ∧
      ∃ g,a.primeiroGrupo d.grupos d.alunosGrupos=some g ∧ g.filaId=some i
  | _ => False

section run

variable {p : Requisicao → Bool → Prop} {s₀ s : World} {es : List Evento} {i : Nat} {f₀ : Fila}

/-- Along a run from an empty fila, everybody past its first pointer is called in passing. -/
theorem Corre.emDia (h : Corre p s₀ es s)
    (hp : ∀ r ok,p r ok → r.acao ∈ [Acao.inscrever,.colegiadosProximo])
    (hf : s₀.db.filas.find i=some f₀) (hv : s₀.db.vagasDe (some i)=[]) :
    ∃ g,s.db.registro.EmDia i f₀.posicao g := by
  refine h.registro hp (I := fun x => ∃ g,x.EmDia i f₀.posicao g)
    ⟨_,Registro.emDia_inicio hf hv⟩ ?_
  rintro x r ok y ⟨g,hg⟩ - hs
  exact hg.passo hs

/-- From no vagas at all on, nobody at or before the first pointer is ever called. -/
theorem Corre.esquece (h : Corre p s₀ es s)
    (hp : ∀ r ok,p r ok → r.acao ∈ [Acao.inscrever,.colegiadosProximo])
    (hf : s₀.db.filas.find i=some f₀) (hv : s₀.db.vagas.rows=[]) :
    s.db.registro.Esquece i f₀.posicao := by
  have hde : s₀.db.vagasDe (some i)=[] := by simp [Db.vagasDe,hv]
  have h₀ : s₀.db.registro.Esquece i f₀.posicao := by
    constructor
    · intro v hm
      simp [hv] at hm
    · intro v d hm
      simp [Db.chamadas,hv] at hm
  have hI := h.registro hp
    (I := fun x => (∃ g,x.EmDia i f₀.posicao g) ∧ x.Esquece i f₀.posicao)
    ⟨⟨_,Registro.emDia_inicio hf hde⟩,h₀⟩ ?_
  · exact hI.2
  · rintro x r ok y ⟨⟨g,hg⟩,hx⟩ - hs
    exact ⟨hg.passo hs,hx.passo hg hs⟩

/-- A fila nobody is sent to stays empty. -/
theorem Corre.vazia (h : Corre p s₀ es s) (hv : s₀.db.vagasDe (some i)=[])
    (hn : ∀ r ok,p r ok → ¬r.EntraEm s₀.db i) : s.db.vagasDe (some i)=[] := by
  have hI := h.invariante (fun k _ => k.alunos=s₀.db.alunos ∧ k.grupos=s₀.db.grupos ∧
    k.alunosGrupos=s₀.db.alunosGrupos ∧ k.vagasDe i=[])
    ⟨rfl,rfl,rfl,by rw [Db.vagasDe_core,hv]; rfl⟩ ?_
  · have hde := hI.2.2.2
    rw [Db.vagasDe_core] at hde
    exact List.map_eq_nil_iff.mp hde
  · rintro k _ r ok _ k' ⟨ha,hg,hag,hde⟩ hr hs
    cases hs.efeito with
    | nada => exact ⟨ha,hg,hag,hde⟩
    | inscreve u m a g f t har hm hgr hgf =>
      refine ⟨ha,hg,hag,?_⟩
      rw [Core.vagasDe_insereVaga]
      split_ifs with hi
      · refine absurd ⟨a,ha ▸ har,hm,g,?_,hi ▸ hgf⟩ (hn _ ok hr)
        rw [← hg,← hag]
        exact hgr
      · exact hde
    | avanca => exact ⟨ha,hg,hag,hde⟩
    | recua => exact ⟨ha,hg,hag,hde⟩
    | ativa => exact ⟨ha,hg,hag,hde⟩

end run

/-- In a run of enrolments and calls of colegiados from an empty fila, nobody is left behind its
pointer if the fila was created with `posicao` 0 or less, or if nobody is sent to it. With any other
`posicao`, 1 by default, the first to enrol is left behind. -/
theorem vagas_semAtraso {p : Requisicao → Bool → Prop} {s₀ s : World} {es : List Evento} {i : Nat}
    {f₀ : Fila} (h : Corre p s₀ es s)
    (hp : ∀ r ok,p r ok → r.acao ∈ [Acao.inscrever,.colegiadosProximo])
    (hf : s₀.db.filas.find i=some f₀) (hv : s₀.db.vagasDe (some i)=[]) :
    ((f₀.posicao≤0 ∨ ∀ r ok,p r ok → ¬r.EntraEm s₀.db i) → s.db.SemAtraso i) ∧
    (s₀.db.vagas.rows=[] → 1≤f₀.posicao → (s.db.SemAtraso i ↔ s.db.vagasDe (some i)=[])) := by
  obtain ⟨g,hg⟩ := h.emDia hp hf hv
  constructor
  · rintro (h0 | hn)
    · exact Db.semAtraso_of_emDia hg h0
    · exact Db.semAtraso_of_vazia (h.vazia hv hn)
  · intro hv₀ h1
    have he := h.esquece hp hf hv₀
    refine ⟨fun hs => ?_,Db.semAtraso_of_vazia⟩
    by_contra hne
    exact Db.not_semAtraso hg he h1 hne hs

/-- Two alunos of a fila created with `posicao` 0, one of them called. -/
theorem vagas_semAtraso_cenario : ∃ es s,
    Corre (completas [.inscrever,.colegiadosProximo]) (Cenario.world Cenario.medida .empty) es s ∧
    s.db.vagas.rows.map (fun v => (v.posicao,v.dataChamada.isSome))=[(some 1,true),(some 2,false)] ∧
    s.db.SemAtraso 1 := by
  have h₀ : Corre (completas [.inscrever,.colegiadosProximo])
      (Cenario.world Cenario.medida .empty) [] _ := .inicio
  have h₁ := h₀.passo (Cenario.inscreve "a") (by decide +kernel)
  have h₂ := h₁.passo (Cenario.inscreve "b") (by decide +kernel)
  have h₃ := h₂.passo (.colegiadosProximo (Cenario.mesa 1) 1) (by decide +kernel)
  refine ⟨_,_,h₃,by decide +kernel,?_⟩
  exact (vagas_semAtraso (i := 1) h₃ (fun _ _ hr => hr.2) rfl rfl).1 (Or.inl (by decide))

/-- The only aluno of a fila with the default `posicao` has the number of the pointer from the
start: the desk that asks for the next one gets nobody, and no request raises. -/
theorem vagas_semAtraso_falha : ∃ es s,
    Corre (completas [.inscrever,.colegiadosProximo]) (Cenario.world Cenario.padrao .empty) es s ∧
    s.db.filas.rows.map (fun f => f.posicao)=[1] ∧
    s.db.vagas.rows.map (fun v => (v.filaId,v.posicao,v.dataChamada))=[(some 1,some 1,none)] ∧
    ¬s.db.SemAtraso 1 := by
  have h₀ : Corre (completas [.inscrever,.colegiadosProximo])
      (Cenario.world Cenario.padrao .empty) [] _ := .inicio
  have h₁ := h₀.passo (Cenario.inscreve "a") (by decide +kernel)
  have h₂ := h₁.passo (.colegiadosProximo (Cenario.mesa 1) 1) (by decide +kernel)
  exact ⟨_,_,h₂,by decide +kernel,by decide +kernel,by decide +kernel⟩

end Sisfila
