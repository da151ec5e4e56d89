import StaticSite.Text

/-!
# The admin script

The markup that a stamped page carries for its editors: a button bar for the page and controls
for every included part, which the script finds by the markers around it.
-/

namespace StaticSite

/-- The script element that goes in front of the closing body tag. -/
def adminScript : Text :=
  Text.ofLines
    ["<script>",
     "(function () \x7b",
     "  var params = new URLSearchParams(window.location.search);",
     "  if (params.get('is_admin') !== 'true') \x7b",
     "    return;",
     "  \x7d",
     "",
     "  var style = document.createElement('style');",
     "  style.textContent =",
     "    '.sitecraft-block:hover\x7boutline:2px solid #3b82f6;cursor:pointer;position:relative;\x7d' +",
     "    '.sitecraft-block:hover::after\x7bcontent:\"Edit / Delete\";position:absolute;top:-20px;right:0;' +",
     "    'background:#3b82f6;color:#fff;font:10px sans-serif;padding:2px 6px;border-radius:2px;pointer-events:none;\x7d';",
     "  document.head.appendChild(style);",
     "",
     "  document.querySelectorAll('.sitecraft-add-btn').forEach(function (el) \x7b",
     "    el.classList.remove('hidden');",
     "  \x7d);",
     "  document.querySelectorAll('.empty-state').forEach(function (el) \x7b",
     "    el.style.display = 'none';",
     "  \x7d);",
     "",
     "  var sourcePath = document.body.getAttribute('data-source-path');",
     "  var buttonStyle =",
     "    'background:#171717;color:#fff;padding:0.5rem 1rem;border-radius:0.375rem;' +",
     "    'font:0.875rem sans-serif;text-decoration:none;border:1px solid #404040;';",
     "",
     "  function controlButton(label, href) \x7b",
     "    var a = document.createElement('a');",
     "    a.href = href;",
     "    a.textContent = label;",
     "    a.style.cssText = buttonStyle;",
     "    a.onmouseover = function () \x7b a.style.background = '#262626'; \x7d;",
     "    a.onmouseout = function () \x7b a.style.background = '#171717'; \x7d;",
     "    return a;",
     "  \x7d",
     "",
     "  if (sourcePath) \x7b",
     "    var controls = document.createElement('div');",
     "    controls.style.cssText = 'position:fixed;bottom:2rem;left:2rem;z-index:9999;display:flex;gap:0.75rem;';",
     "    controls.appendChild(controlButton('Edit', '/admin/files/view?path=' + encodeURIComponent(sourcePath)));",
     "    controls.appendChild(controlButton('Home', '/admin'));",
     "    document.body.appendChild(controls);",
     "  \x7d",
     "",
     "  function post(url, body, failure) \x7b",
     "    return fetch(url, \x7b",
     "      method: 'POST',",
     "      headers: \x7b 'Content-Type': 'application/x-www-form-urlencoded' \x7d,",
     "      body: body",
     "    \x7d).then(function (res) \x7b",
     "      if (res.ok) \x7b",
     "        window.location.reload();",
     "      \x7d else \x7b",
     "        alert(failure);",
     "      \x7d",
     "    \x7d);",
     "  \x7d",
     "",
     "  // Walk back through preceding siblings, then ancestors, to the nearest",
     "  // unbalanced __TP_INC__ comment.",
     "  function findIncludeMarker(element) \x7b",
     "    for (var node = element; node && node !== document.body; node = node.parentNode) \x7b",
     "      var depth = 0;",
     "      for (var sib = node.previousSibling; sib; sib = sib.previousSibling) \x7b",
     "        if (sib.nodeType !== Node.COMMENT_NODE) \x7b",
     "          continue;",
     "        \x7d",
     "        var text = sib.nodeValue.trim();",
     "        if (text === '__TP_END_INC__') \x7b",
     "          depth++;",
     "        \x7d else if (text.indexOf('__TP_INC__') === 0) \x7b",
     "          if (depth > 0) \x7b",
     "            depth--;",
     "            continue;",
     "          \x7d",
     "          var file = text.match(/file=\"([^\"]+)\"/);",
     "          var index = text.match(/token_index=\"([^\"]+)\"/);",
     "          if (file && index) \x7b",
     "            return \x7b file: file[1], index: index[1] \x7d;",
     "          \x7d",
     "        \x7d",
     "      \x7d",
     "    \x7d",
     "    return null;",
     "  \x7d",
     "",
     "  function showPartialPicker() \x7b",
     "    fetch('/admin/api/partials')",
     "      .then(function (res) \x7b return res.json(); \x7d)",
     "      .then(function (data) \x7b",
     "        var modal = document.getElementById('sitecraft-partial-modal');",
     "        if (!modal) \x7b",
     "          modal = document.createElement('div');",
     "          modal.id = 'sitecraft-partial-modal';",
     "          modal.style.cssText =",
     "            'position:fixed;inset:0;background:rgba(0,0,0,0.8);z-index:9999;' +",
     "            'display:flex;align-items:center;justify-content:center;';",
     "          var panel = document.createElement('div');",
     "          panel.style.cssText = 'background:#171717;border:1px solid #404040;padding:24px;border-radius:8px;width:300px;color:#fff;';",
     "          var list = document.createElement('ul');",
     "          list.id = 'sitecraft-partial-list';",
     "          panel.appendChild(list);",
     "          var cancel = document.createElement('button');",
     "          cancel.textContent = 'Cancel';",
     "          cancel.onclick = function () \x7b modal.style.display = 'none'; \x7d;",
     "          panel.appendChild(cancel);",
     "          modal.appendChild(panel);",
     "          document.body.appendChild(modal);",
     "        \x7d",
     "",
     "        var items = document.getElementById('sitecraft-partial-list');",
     "        items.innerHTML = '';",
     "        data.files.forEach(function (file) \x7b",
     "          var item = document.createElement('li');",
     "          item.textContent = file;",
     "          item.style.cssText = 'padding:12px;background:#262626;margin-bottom:8px;cursor:pointer;border-radius:4px;';",
     "          item.onclick = function () \x7b",
     "            post('/admin/api/insert-partial',",
     "              'target_file=' + encodeURIComponent(sourcePath) +",
     "              '&partial_name=' + encodeURIComponent('partials/' + file),",
     "              'Error inserting partial');",
     "          \x7d;",
     "          items.appendChild(item);",
     "        \x7d);",
     "        modal.style.display = 'flex';",
     "      \x7d);",
     "  \x7d",
     "",
     "  document.addEventListener('click', function (e) \x7b",
     "    if (e.target.closest('.sitecraft-add-btn')) \x7b",
     "      e.preventDefault();",
     "      e.stopPropagation();",
     "      showPartialPicker();",
     "      return;",
     "    \x7d",
     "",
     "    if (e.target.classList.contains('sitecraft-block')) \x7b",
     "      e.preventDefault();",
     "      e.stopPropagation();",
     "      var info = findIncludeMarker(e.target);",
     "      if (!info) \x7b",
     "        alert('This block is not part of an include and cannot be deleted here.');",
     "      \x7d else if (confirm('Delete this block included from ' + info.file + '?')) \x7b",
     "        post('/admin/api/delete-block',",
     "          'file=' + encodeURIComponent(info.file) +",
     "          '&token_index=' + encodeURIComponent(info.index),",
     "          'Error deleting block');",
     "      \x7d",
     "      return;",
     "    \x7d",
     "",
     "    var link = e.target.closest('a');",
     "    if (link && link.href) \x7b",
     "      var url = new URL(link.href, window.location.origin);",
     "      if (url.origin === window.location.origin && !url.searchParams.has('is_admin')) \x7b",
     "        url.searchParams.set('is_admin', 'true');",
     "        link.href = url.toString();",
     "      \x7d",
     "    \x7d",
     "  \x7d);",
     "\x7d)();",
     "</script>",
     ""]

end StaticSite
